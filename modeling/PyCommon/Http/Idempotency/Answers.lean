import Mathlib.Data.List.Induction
import PyCommon.Http.Idempotency.Records

/-!
# From a stored response to an answer

A request is answered with the response of an earlier one by way of the store: the
server executes the `SET` of the earlier request's record, later the `GET` of the later
request, and the reply reaches the later request. In between nothing may become of the
key; it must not expire, and no `DEL` and no `SET` may be executed on it.

For two requests that share a key and a fingerprint this is exact in every run: the later
one is answered with the response of the earlier one if and only if these things happen
in this order (`answered_iff`). Backwards from an answer, the steps are collected along
the run (`Told`). Forwards, what has been stored stays until it is read, and what has been
read is answered with.
-/

set_option autoImplicit false

namespace PyCommon.Idempotency

open StepSystem

variable {cfg : IdempotencyMiddleware} {sha256 : Bytes → String}

/-! ## Storing, reading and answering -/

/-- The later call is not answered with the response stored for the earlier one. -/
def NotAnswered (earlier later : ℕ) (s : Sys) : Prop :=
  ∀ q ∈ s.procs later, ∀ record, q.phase ≠ .ended (.replayed record earlier)

/-- The `SET` of a done record. -/
def storesRecord : Phase → Bool
  | .storing _ => true
  | _ => false

/-- A command that drops or replaces what its key holds. -/
def clearsKey : Phase → Bool
  | .deleting _ => true
  | .storing _ => true
  | _ => false

/-- The server stores the response of the request, as soon as it is sent or late. -/
def Stores (id : ℕ) (s : Sys) : Label → Prop
  | .redis other => other = id ∧ ∃ p ∈ s.procs id, storesRecord p.phase
  | .late other => other = id ∧ ∃ p ∈ s.abandoned id, storesRecord p.phase
  | _ => False

variable (cfg sha256) in
/-- The key expires, or a `DEL` or a `SET` is executed on it. -/
def Clears (key : String) (s : Sys) : Label → Prop
  | .elapse ms => ∃ slot ∈ s.store key, slot.deadline ≤ s.now + ms
  | .redis id => ∃ p ∈ s.procs id, clearsKey p.phase ∧ p.redisKey cfg sha256 = key
  | .late id => ∃ p ∈ s.abandoned id, clearsKey p.phase ∧ p.redisKey cfg sha256 = key
  | _ => False

/-- The `GET` of the request is executed. -/
def Reads (id : ℕ) (s : Sys) : Label → Prop
  | .redis other => other = id ∧ ∃ p ∈ s.procs id, p.phase = .getting
  | _ => False

/-- The request goes on, and its await has not raised. -/
def GoesOn (id : ℕ) (_ : Sys) : Label → Prop
  | .resume other none => other = id
  | _ => False

/-- The request stays at its await. -/
def Waits (id : ℕ) (_ : Sys) : Label → Prop
  | .resume other _ => other ≠ id
  | _ => True

variable (cfg sha256) in
/-- The response of the earlier request is stored, nothing becomes of its key until the
`GET` of the later one is executed, and the reply to that reaches the later one. -/
def KeptUntilRead (key : String) (earlier later : ℕ) : Sys → List Label → Prop :=
  Until (step cfg sha256) (fun _ _ => True) (Stores earlier) <|
    Until (step cfg sha256) (fun s l => ¬ Clears cfg sha256 key s l) (Reads later) <|
      Until (step cfg sha256) (Waits later) (GoesOn later) fun _ _ => True

instance (id : ℕ) (s : Sys) (l : Label) : Decidable (Stores id s l) :=
  match l with
  | .redis other => inferInstanceAs (Decidable
      (other = id ∧ ∃ p ∈ s.procs id, storesRecord p.phase))
  | .late other => inferInstanceAs (Decidable
      (other = id ∧ ∃ p ∈ s.abandoned id, storesRecord p.phase))
  | .arrive _ _ | .elapse _ | .timeout _ | .resume _ _ => isFalse False.elim

instance (key : String) (s : Sys) (l : Label) : Decidable (Clears cfg sha256 key s l) :=
  match l with
  | .elapse ms => inferInstanceAs (Decidable (∃ slot ∈ s.store key, slot.deadline ≤ s.now + ms))
  | .redis id => inferInstanceAs (Decidable
      (∃ p ∈ s.procs id, clearsKey p.phase ∧ p.redisKey cfg sha256 = key))
  | .late id => inferInstanceAs (Decidable
      (∃ p ∈ s.abandoned id, clearsKey p.phase ∧ p.redisKey cfg sha256 = key))
  | .arrive _ _ | .timeout _ | .resume _ _ => isFalse False.elim

instance (id : ℕ) (s : Sys) (l : Label) : Decidable (Reads id s l) :=
  match l with
  | .redis other => inferInstanceAs (Decidable
      (other = id ∧ ∃ p ∈ s.procs id, p.phase = .getting))
  | .arrive _ _ | .elapse _ | .timeout _ | .resume _ _ | .late _ => isFalse False.elim

instance (id : ℕ) (s : Sys) (l : Label) : Decidable (GoesOn id s l) :=
  match l with
  | .resume other none => inferInstanceAs (Decidable (other = id))
  | .resume _ (some _) | .arrive _ _ | .elapse _ | .timeout _ | .redis _ | .late _ =>
      isFalse False.elim

instance (id : ℕ) (s : Sys) (l : Label) : Decidable (Waits id s l) :=
  match l with
  | .resume other _ => inferInstanceAs (Decidable (other ≠ id))
  | .arrive _ _ | .elapse _ | .timeout _ | .redis _ | .late _ => isTrue trivial

instance (key : String) (earlier later : ℕ) (s : Sys) (ls : List Label) :
    Decidable (KeptUntilRead cfg sha256 key earlier later s ls) := by
  unfold KeptUntilRead
  infer_instance

/-! ## One command -/

/-- A done record under a key after a command was stored by it, or was there before and
the command clears another key, or none. -/
theorem stored_or_kept_of_executes {now id : ℕ} {store after : Store} {p : Proc} {phase : Phase}
    (does : p.Executes cfg sha256 now id store after phase) {key : String}
    {slot : Keyspace.Slot Held} (held : after key = some slot) (done : slot.value.value.isDone) :
    (storesRecord p.phase ∧ slot.value.writer = id) ∨
      store key = some slot ∧ ¬ (clearsKey p.phase ∧ p.redisKey cfg sha256 = key) := by
  cases does with
  | win sent free =>
      rw [sent]
      by_cases same : key = p.redisKey cfg sha256
      · subst same
        obtain rfl := Option.some.inj ((Keyspace.write_self ..).symm.trans held)
        cases done
      · exact .inr ⟨(Keyspace.write_of_ne same).symm.trans held, fun both => by cases both.1⟩
  | lose sent taken =>
      rw [sent]
      exact .inr ⟨held, fun both => by cases both.1⟩
  | get sent =>
      rw [sent]
      exact .inr ⟨held, fun both => by cases both.1⟩
  | delete sent =>
      by_cases same : key = p.redisKey cfg sha256
      · subst same
        cases (Keyspace.delete_self ..).symm.trans held
      · exact .inr ⟨(Keyspace.delete_of_ne same).symm.trans held, fun both => same both.2.symm⟩
  | store sent =>
      by_cases same : key = p.redisKey cfg sha256
      · subst same
        obtain rfl := Option.some.inj ((Keyspace.write_self ..).symm.trans held)
        exact .inl ⟨by rw [sent]; rfl, rfl⟩
      · exact .inr ⟨(Keyspace.write_of_ne same).symm.trans held, fun both => same both.2.symm⟩

/-- A command that does not clear a key leaves it what it holds. -/
theorem kept_of_executes {now id : ℕ} {store after : Store} {p : Proc} {phase : Phase}
    (does : p.Executes cfg sha256 now id store after phase) {key : String}
    {slot : Keyspace.Slot Held} (held : store key = some slot)
    (leaves : ¬ (clearsKey p.phase ∧ p.redisKey cfg sha256 = key)) : after key = some slot := by
  cases does with
  | win sent free =>
      refine (Keyspace.write_of_ne fun same => ?_).trans held
      rw [same, free] at held
      cases held
  | lose sent taken => exact held
  | get sent => exact held
  | delete sent =>
      refine (Keyspace.delete_of_ne fun same => leaves ⟨?_, same.symm⟩).trans held
      rw [sent]
      rfl
  | store sent =>
      refine (Keyspace.write_of_ne fun same => leaves ⟨?_, same.symm⟩).trans held
      rw [sent]
      rfl

/-! ## From an answer back to what was stored -/

/-- A step after which a key holds a done record has stored it, or found it there and left
it. -/
theorem stored_or_kept_of_step {s next : Sys} {l : Label} {key : String}
    {slot : Keyspace.Slot Held} (taken : step cfg sha256 s l = some next)
    (held : next.store key = some slot) (done : slot.value.value.isDone) :
    Stores slot.value.writer s l ∨ s.store key = some slot ∧ ¬ Clears cfg sha256 key s l := by
  cases l with
  | arrive id request =>
      obtain ⟨_, rfl⟩ := step_arrive.mp taken
      exact .inr ⟨held, False.elim⟩
  | elapse ms =>
      obtain rfl := Option.some.inj taken
      obtain ⟨before, due⟩ := Keyspace.evict_eq_some.mp held
      refine .inr ⟨before, ?_⟩
      rintro ⟨slot', also, passed⟩
      obtain rfl := Option.some.inj (before.symm.trans also)
      exact absurd due (Nat.not_lt.mpr passed)
  | timeout id =>
      obtain ⟨_, _, _, rfl⟩ := step_timeout.mp taken
      exact .inr ⟨held, False.elim⟩
  | resume id fault =>
      obtain ⟨p, _, _, _, _, rfl⟩ := step_resume.mp taken
      exact .inr ⟨(congrFun (leave_store s id p) key).symm.trans held, False.elim⟩
  | redis id =>
      obtain ⟨p, _, store, there, moved, rfl⟩ := step_redis.mp taken
      obtain ⟨phase, does, rfl⟩ := executes_of_command moved
      rcases stored_or_kept_of_executes does held done with ⟨stores, rfl⟩ | ⟨before, leaves⟩
      · exact .inl ⟨rfl, p, there, stores⟩
      · refine .inr ⟨before, ?_⟩
        rintro ⟨p', also, clears⟩
        obtain rfl := Option.some.inj (there.symm.trans also)
        exact leaves clears
  | late id =>
      obtain ⟨p, _, store, left, moved, rfl⟩ := step_late.mp taken
      obtain ⟨phase, does, rfl⟩ := executes_of_command moved
      rcases stored_or_kept_of_executes does held done with ⟨stores, rfl⟩ | ⟨before, leaves⟩
      · exact .inl ⟨rfl, p, left, stores⟩
      · refine .inr ⟨before, ?_⟩
        rintro ⟨p', also, clears⟩
        obtain rfl := Option.some.inj (left.symm.trans also)
        exact leaves clears

variable (cfg sha256) in
/-- What a run that has led to `t` says of the response of the earlier call: when its key
holds it, when the later call has read it, and when the later call was answered with it. -/
structure Told (key : String) (earlier later : ℕ) (s : Sys) (ls : List Label) (t : Sys) :
    Prop where
  kept : ∀ slot, t.store key = some slot → slot.value.writer = earlier →
    slot.value.value.isDone →
      Until (step cfg sha256) (fun _ _ => True) (Stores earlier)
        (EveryStep (step cfg sha256) fun s l => ¬ Clears cfg sha256 key s l) s ls
  read : ∀ q ∈ t.procs later, q.redisKey cfg sha256 = key → ∀ record,
    q.phase = .getReply (some ⟨.done record, earlier⟩) →
      Until (step cfg sha256) (fun _ _ => True) (Stores earlier)
        (Until (step cfg sha256) (fun s l => ¬ Clears cfg sha256 key s l) (Reads later)
          (EveryStep (step cfg sha256) (Waits later))) s ls
  answered : ∀ q ∈ t.procs later, q.redisKey cfg sha256 = key → ∀ record,
    q.phase = .ended (.replayed record earlier) →
      KeptUntilRead cfg sha256 key earlier later s ls

theorem told_nil {s : Sys} {key : String} {earlier later : ℕ} (fresh : s.Fresh)
    (vacant : ∀ key, s.store key = none) : Told cfg sha256 key earlier later s [] s where
  kept slot held := by cases (vacant key).symm.trans held
  read q there := by cases (fresh later).1.symm.trans there
  answered q there := by cases (fresh later).1.symm.trans there

theorem true_everyStep (s : Sys) (ls : List Label) :
    EveryStep (step cfg sha256) (fun _ _ => True) s ls :=
  everyStep_of_forall_mem (fun _ _ _ => trivial) s

theorem Told.step_kept {key : String} {earlier later : ℕ} {s t next : Sys} {ls : List Label}
    {l : Label} (told : Told cfg sha256 key earlier later s ls t)
    (run : exec (step cfg sha256) s ls = some t) (taken : step cfg sha256 t l = some next)
    (slot : Keyspace.Slot Held) (held : next.store key = some slot)
    (writer : slot.value.writer = earlier) (done : slot.value.value.isDone) :
    Until (step cfg sha256) (fun _ _ => True) (Stores earlier)
      (EveryStep (step cfg sha256) fun s l => ¬ Clears cfg sha256 key s l) s (ls ++ [l]) := by
  rcases stored_or_kept_of_step taken held done with stores | ⟨before, leaves⟩
  · exact until_of_last run (true_everyStep s ls) (writer ▸ stores) taken trivial
  · exact (told.kept slot before writer done).concat run fun u ms rest every =>
      every.concat rest leaves

theorem Told.step_read {key : String} {earlier later : ℕ} {s t next : Sys} {ls : List Label}
    {l : Label} (told : Told cfg sha256 key earlier later s ls t)
    (run : exec (step cfg sha256) s ls = some t) (taken : step cfg sha256 t l = some next)
    (q : Proc) (after : next.procs later = some q) (own : q.redisKey cfg sha256 = key)
    (record : DoneRecord) (here : q.phase = .getReply (some ⟨.done record, earlier⟩)) :
    Until (step cfg sha256) (fun _ _ => True) (Stores earlier)
      (Until (step cfg sha256) (fun s l => ¬ Clears cfg sha256 key s l) (Reads later)
        (EveryStep (step cfg sha256) (Waits later))) s (ls ++ [l]) := by
  -- a call that has read the record and is not resumed waits
  have waited : ∀ p, t.procs later = some p → p.redisKey cfg sha256 = key →
      p.phase = .getReply (some ⟨.done record, earlier⟩) → Waits later t l →
      Until (step cfg sha256) (fun _ _ => True) (Stores earlier)
        (Until (step cfg sha256) (fun s l => ¬ Clears cfg sha256 key s l) (Reads later)
          (EveryStep (step cfg sha256) (Waits later))) s (ls ++ [l]) := by
    intro p there sameKey read waits
    refine (told.read p there sameKey record read).concat run fun u ms rest occurs => ?_
    exact occurs.concat rest fun v ns last every => every.concat last waits
  by_cases waits : Waits later t l
  · rcases arrived_or_goes_of_step after taken with ⟨request, rfl, rfl⟩ | ⟨p, there, goes⟩
    · exact absurd here ((begin_phase cfg request).2 _)
    · cases goes with
      | still => exact waited q there own here waits
      | timedOut => exact waited p there own here waits
      | resumed moves => exact absurd here (ne_getReply_of_resumes moves)
      | executed does =>
          obtain ⟨sent, found⟩ := getReply_of_executes does here
          obtain ⟨slot, held, value⟩ := Option.map_eq_some_iff.mp found
          have kept := told.kept slot (own ▸ held) (by rw [value]) (by rw [value]; rfl)
          refine kept.concat run fun u ms rest every => ?_
          exact until_of_last rest every ⟨rfl, p, there, sent⟩ taken trivial
  · cases l with
    | resume id fault =>
        obtain rfl : id = later := by simpa [Waits] using waits
        obtain ⟨p, q', _, _, moved, rfl⟩ := step_resume.mp taken
        obtain rfl := Option.some.inj ((put_procs_self ..).symm.trans after)
        exact absurd here (ne_getReply_of_resumes (resumes_of_resume moved))
    | _ => exact absurd trivial waits

theorem Told.step_answered {key : String} {earlier later : ℕ} {s t next : Sys} {ls : List Label}
    {l : Label} (told : Told cfg sha256 key earlier later s ls t)
    (run : exec (step cfg sha256) s ls = some t) (taken : step cfg sha256 t l = some next)
    (q : Proc) (after : next.procs later = some q) (own : q.redisKey cfg sha256 = key)
    (record : DoneRecord) (here : q.phase = .ended (.replayed record earlier)) :
    KeptUntilRead cfg sha256 key earlier later s (ls ++ [l]) := by
  -- what has happened by then stays so
  have before : ∀ p, t.procs later = some p → p.redisKey cfg sha256 = key →
      p.phase = .ended (.replayed record earlier) →
      KeptUntilRead cfg sha256 key earlier later s (ls ++ [l]) := by
    intro p there sameKey answered
    refine (told.answered p there sameKey record answered).concat run fun u ms rest occurs => ?_
    exact occurs.concat rest fun v ns last reaches => reaches.concat last fun _ _ _ _ => trivial
  rcases arrived_or_goes_of_step after taken with ⟨request, rfl, rfl⟩ | ⟨p, there, goes⟩
  · exact absurd here (begin_ne_replayed request record earlier)
  · cases goes with
    | still => exact before q there own here
    | timedOut => exact before p there own here
    | @resumed fault _ moves =>
        obtain ⟨reply, _⟩ := replayed_of_resumes moves here
        obtain rfl := fault_of_replayed moves here
        have read := told.read p there ((redisKey_of_resumes moves).symm.trans own) record reply
        refine read.concat run fun u ms rest occurs => ?_
        refine occurs.concat rest fun v ns last every => ?_
        exact until_of_last last every rfl taken trivial
    | executed does => exact absurd here ((ne_of_executes does).2.2 _)

theorem told_of_run {key : String} {earlier later : ℕ} {s t : Sys} {ls : List Label}
    (fresh : s.Fresh) (vacant : ∀ key, s.store key = none)
    (run : exec (step cfg sha256) s ls = some t) :
    Told cfg sha256 key earlier later s ls t := by
  induction ls using List.reverseRecOn generalizing t with
  | nil =>
      obtain rfl := Option.some.inj run
      exact told_nil fresh vacant
  | append_singleton ls l ih =>
      obtain ⟨middle, first, taken⟩ := exec_concat_eq_some run
      have told := ih first
      exact ⟨told.step_kept first taken, told.step_read first taken, told.step_answered first taken⟩

/-! ## From what was stored on to an answer -/

/-- Once the response of a request is stored, its key holds the record under its own
fingerprint. -/
theorem holds_of_stores {s next : Sys} {l : Label} {id : ℕ} (all : AllSourced cfg sha256 next)
    (stores : Stores id s l) (taken : step cfg sha256 s l = some next) :
    ∃ p record slot, next.procs id = some p ∧ p.phase ≠ .buffering ∧
      next.store (p.redisKey cfg sha256) = some slot ∧ slot.value = ⟨.done record, id⟩ ∧
      record.fingerprint = p.ticket.fingerprint sha256 := by
  -- the command writes under its key, and its writer is the source of what it writes
  have written : ∀ (p : Proc) store phase, storesRecord p.phase →
      p.Executes cfg sha256 s.now id s.store store phase → next.store = store →
      ∃ key record slot, next.store key = some slot ∧ slot.value = ⟨.done record, id⟩ := by
    intro p store phase stores does same
    rw [same]
    cases does with
    | store sent => exact ⟨_, _, _, Keyspace.write_self .., rfl⟩
    | _ sent => rw [sent] at stores; cases stores
  obtain ⟨key, record, slot, held, value⟩ :
      ∃ key record slot, next.store key = some slot ∧ slot.value = ⟨.done record, id⟩ := by
    cases l with
    | redis other =>
        obtain ⟨rfl, p, there, stores⟩ := stores
        obtain ⟨p', _, store, also, moved, rfl⟩ := step_redis.mp taken
        obtain rfl := Option.some.inj (also.symm.trans there)
        obtain ⟨phase, does, rfl⟩ := executes_of_command moved
        exact written p' store phase stores does rfl
    | late other =>
        obtain ⟨rfl, p, left, stores⟩ := stores
        obtain ⟨p', _, store, also, moved, rfl⟩ := step_late.mp taken
        obtain rfl := Option.some.inj (also.symm.trans left)
        obtain ⟨phase, does, rfl⟩ := executes_of_command moved
        exact written p' store phase stores does rfl
    | _ => exact stores.elim
  obtain ⟨p, there, read, rfl, source, _⟩ := all.store key slot held
  rw [value] at there source
  exact ⟨p, record, slot, there, read, held, value, source⟩

/-- What a key holds stays when nothing clears the key. -/
theorem kept_of_step {s next : Sys} {l : Label} {key : String} {slot : Keyspace.Slot Held}
    (taken : step cfg sha256 s l = some next) (leaves : ¬ Clears cfg sha256 key s l)
    (held : s.store key = some slot) : next.store key = some slot := by
  cases l with
  | arrive id request =>
      obtain ⟨_, rfl⟩ := step_arrive.mp taken
      exact held
  | elapse ms =>
      obtain rfl := Option.some.inj taken
      refine Keyspace.evict_eq_some.mpr ⟨held, ?_⟩
      by_contra passed
      exact leaves ⟨slot, held, Nat.not_lt.mp passed⟩
  | timeout id =>
      obtain ⟨_, _, _, rfl⟩ := step_timeout.mp taken
      exact held
  | resume id fault =>
      obtain ⟨p, _, _, _, _, rfl⟩ := step_resume.mp taken
      exact (congrFun (leave_store s id p) key).trans held
  | redis id =>
      obtain ⟨p, _, store, there, moved, rfl⟩ := step_redis.mp taken
      obtain ⟨phase, does, rfl⟩ := executes_of_command moved
      exact kept_of_executes does held fun clears => leaves ⟨p, there, clears⟩
  | late id =>
      obtain ⟨p, _, store, left, moved, rfl⟩ := step_late.mp taken
      obtain ⟨phase, does, rfl⟩ := executes_of_command moved
      exact kept_of_executes does held fun clears => leaves ⟨p, left, clears⟩

/-- A `GET` reads what the key of its call holds. -/
theorem read_of_reads {s next : Sys} {l : Label} {id : ℕ} (reads : Reads id s l)
    (taken : step cfg sha256 s l = some next) :
    ∃ p q, s.procs id = some p ∧ p.phase = .getting ∧ next.procs id = some q ∧
      q.ticket = p.ticket ∧
      q.phase = .getReply ((s.store (p.redisKey cfg sha256)).map Keyspace.Slot.value) := by
  cases l with
  | redis other =>
      obtain ⟨rfl, p, there, getting⟩ := reads
      obtain ⟨p', _, store, also, moved, rfl⟩ := step_redis.mp taken
      obtain rfl := Option.some.inj (also.symm.trans there)
      obtain ⟨phase, does, rfl⟩ := executes_of_command moved
      cases does with
      | get sent => exact ⟨p', _, there, getting, put_procs_self .., rfl, rfl⟩
      | _ sent => cases getting.symm.trans sent
  | _ => exact reads.elim

/-- A call that waits with a reply keeps it. -/
theorem reply_of_run {s t : Sys} {ls : List Label} {id : ℕ} {p q : Proc} {raw : Option Held}
    (run : exec (step cfg sha256) s ls = some t)
    (waits : EveryStep (step cfg sha256) (Waits id) s ls) (there : s.procs id = some p)
    (reply : p.phase = .getReply raw) (after : t.procs id = some q) : q.phase = .getReply raw := by
  have start : s.Has id fun r => r.phase = .getReply raw := ⟨p, there, reply⟩
  obtain ⟨q', also, same⟩ := has_of_run (fun s next l r r' waits before goes => by
    cases goes with
    | still => exact before
    | timedOut => exact before
    | resumed moves => exact absurd rfl waits
    | executed does =>
        have sent := sent_of_executes does
        rw [before] at sent
        cases sent) run waits start
  obtain rfl := Option.some.inj (after.symm.trans also)
  exact same

/-- A call that goes on with a done record under its fingerprint is answered with it. -/
theorem replayed_of_goesOn {s next : Sys} {l : Label} {id : ℕ} {p : Proc} {record : DoneRecord}
    {writer : ℕ} (there : s.procs id = some p)
    (reply : p.phase = .getReply (some ⟨.done record, writer⟩))
    (same : record.fingerprint = p.ticket.fingerprint sha256) (goesOn : GoesOn id s l)
    (taken : step cfg sha256 s l = some next) :
    ∃ q, next.procs id = some q ∧ q.phase = .ended (.replayed record writer) := by
  cases l with
  | resume other fault =>
      cases fault with
      | some e => exact goesOn.elim
      | none =>
          obtain rfl : other = id := goesOn
          obtain ⟨p', q, also, _, moved, rfl⟩ := step_resume.mp taken
          obtain rfl := Option.some.inj (there.symm.trans also)
          refine ⟨q, put_procs_self .., ?_⟩
          simp only [Proc.resume, reply, Option.some.injEq] at moved
          subst moved
          exact congrArg Phase.ended (handleExisting_eq_replayed.mpr ⟨rfl, same⟩)
  | _ => exact goesOn.elim

/-- What is stored, kept and read is answered with. -/
theorem replayed_of_keptUntilRead {s u : Sys} {ls : List Label} {earlier later : ℕ} {p q : Proc}
    (fresh : s.Fresh) (vacant : ∀ key, s.store key = none)
    (run : exec (step cfg sha256) s ls = some u) (hp : u.procs earlier = some p)
    (hq : u.procs later = some q) (sameKey : p.redisKey cfg sha256 = q.redisKey cfg sha256)
    (same : p.ticket.fingerprint sha256 = q.ticket.fingerprint sha256)
    (occurs : KeptUntilRead cfg sha256 (q.redisKey cfg sha256) earlier later s ls) :
    ∃ record, q.phase = .ended (.replayed record earlier) := by
  -- the record is stored
  obtain ⟨_, _, rest, _, stored, rfl, run₁, -, stores, taken₁, occurs⟩ := exists_of_until occurs
  obtain ⟨_, onward, run₂⟩ := exec_cons_eq_some.mp ((exec_append_of_eq_some run₁).symm.trans run)
  obtain rfl := Option.some.inj (taken₁.symm.trans onward)
  have all : AllSourced cfg sha256 stored :=
    allSourced_step (allSourced_of_run fresh vacant run₁) taken₁
  obtain ⟨p₁, record, slot, there₁, read₁, held, value, own⟩ := holds_of_stores all stores taken₁
  have ticket₁ : p.ticket = p₁.ticket := ticket_of_run there₁ read₁ run₂ hp
  rw [← ticket₁, same] at own
  rw [show p₁.redisKey cfg sha256 = p.redisKey cfg sha256 by rw [Proc.redisKey, ← ticket₁]; rfl,
    sameKey] at held
  -- it is there when it is read
  obtain ⟨_, _, rest, found, _, rfl, run₃, untouched, reads, taken₃, occurs⟩ :=
    exists_of_until occurs
  obtain ⟨read, onward, run₄⟩ :=
    exec_cons_eq_some.mp ((exec_append_of_eq_some run₃).symm.trans run₂)
  obtain rfl := Option.some.inj (taken₃.symm.trans onward)
  have still : found.store (q.redisKey cfg sha256) = some slot :=
    exec_invariant (fun _ _ _ leaves held taken => kept_of_step taken leaves held) run₃ untouched
      held
  obtain ⟨q₃, q₄, there₃, getting, there₄, ticket₄, reply⟩ := read_of_reads reads taken₃
  have past : q₄.phase ≠ .buffering := by
    rw [reply]
    exact fun same => by cases same
  have ticket₃ : q.ticket = q₄.ticket :=
    ticket_of_run there₄ past run₄ hq
  rw [show q₃.redisKey cfg sha256 = q.redisKey cfg sha256 by
      rw [Proc.redisKey, ← ticket₄, ← ticket₃]; rfl, still, Option.map_some, value] at reply
  -- the reply reaches the call
  obtain ⟨_, _, rest, waited, _, rfl, run₅, waits, goesOn, taken₅, -⟩ := exists_of_until occurs
  obtain ⟨ended, onward, run₆⟩ :=
    exec_cons_eq_some.mp ((exec_append_of_eq_some run₅).symm.trans run₄)
  obtain rfl := Option.some.inj (taken₅.symm.trans onward)
  obtain ⟨q₅, there₅⟩ := there_of_run there₄ run₅
  have reply₅ := reply_of_run run₅ waits there₄ reply there₅
  have ticket₅ := ticket_of_run there₄ past run₅ there₅
  rw [ticket₃, ← ticket₅] at own
  obtain ⟨q₆, there₆, replayed⟩ := replayed_of_goesOn there₅ reply₅ own goesOn taken₅
  exact ⟨record, ended_of_run there₆ replayed run₆ hq⟩

/-- **From a stored response to an answer.** In every run, of two requests that share a
key and a fingerprint the later is answered with the response of the earlier exactly when
that response is stored, the key neither expires nor is deleted or overwritten until the
`GET` of the later request is executed, and the reply reaches the later request. -/
theorem answered_iff {s u : Sys} {ls : List Label} {earlier later : ℕ} {p q : Proc}
    (fresh : s.Fresh) (vacant : ∀ key, s.store key = none)
    (run : exec (step cfg sha256) s ls = some u) (hp : u.procs earlier = some p)
    (hq : u.procs later = some q) (sameKey : p.redisKey cfg sha256 = q.redisKey cfg sha256)
    (same : p.ticket.fingerprint sha256 = q.ticket.fingerprint sha256) :
    (∃ record, q.phase = .ended (.replayed record earlier)) ↔
      KeptUntilRead cfg sha256 (q.redisKey cfg sha256) earlier later s ls := by
  constructor
  · rintro ⟨record, answered⟩
    exact (told_of_run fresh vacant run).answered q hq rfl record answered
  · exact replayed_of_keptUntilRead fresh vacant run hp hq sameKey same

/-- An answer is for good, so that a call is never answered so exactly when it is not
answered so in the end. -/
theorem everyState_notAnswered_iff {s u : Sys} {ls : List Label} {earlier later : ℕ} {q : Proc}
    (run : exec (step cfg sha256) s ls = some u) (hq : u.procs later = some q) :
    EveryState (step cfg sha256) (NotAnswered earlier later) s ls ↔
      ¬ ∃ record, q.phase = .ended (.replayed record earlier) := by
  rw [everyState_iff_last ?_ run]
  · simp [NotAnswered, hq]
  · intro s l next answered taken
    simp only [NotAnswered, not_forall, not_not] at answered ⊢
    obtain ⟨q, there, record, ended⟩ := answered
    have single : exec (step cfg sha256) s [l] = some next := by
      rw [exec_cons, taken, Option.bind_some, exec_nil]
    obtain ⟨q', after, _⟩ := goes_of_step there taken
    exact ⟨q', after, record, ended_of_run there ended single after⟩

end PyCommon.Idempotency
