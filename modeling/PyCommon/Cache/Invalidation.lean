import PyCommon.Cache.Stampede

/-!
# Values read before a delete

Calls of `get_or_set` and of `delete` on one key, and those a function wrapped by
`cached` makes for the arguments of that key, run beside changes of the source. Redis
answers every command. It executes them in any order and its replies arrive when they
like; the entry and the lock may expire, and a call may wait for the lock in vain.

The source is known by its version, the number of changes. History variables record at
which version a value was read: for the factory under way (`readAt`), for the value a
call has in hand (`carries`) and for the one in the entry (`origin`). A delete promises
the version at which it was issued once it has returned, and a call is owed what was
promised when it began (`due`).

A factory may read the source, be overtaken by a change and its delete, and have its
value stored after them: nothing compares the two, and the entry is then served to every
later call (`stored_after_delete`). That is the only way. In every run in which no `SET`
is executed after a `DEL` that was issued at a later version than its value was read at,
every call is given what it is owed (`no_stale_after_delete`).
-/

set_option autoImplicit false

namespace PyCommon.CacheAside

open StepSystem

/-! ## Deleting -/

section Definitions

variable {Value Args : Type} (cache : Cache Value)

/-- The awaits of a `delete`. -/
inductive DeleteTask where
  | done (result : Except Exc Unit)
  | delete (key : String) (k : Except Exc ℤ → DeleteTask)

/-- `delete`. -/
def Cache.delete (key : String) : DeleteTask :=
  .delete (cache.buildKey key) fun reply =>
    .done ((swallowRedisError 0 reply).map fun _ => ())

/-- What `cached` keeps for the function it wraps: its cache, and the key that
`key_builder` makes of the arguments. -/
structure Cached (Value Args : Type) where
  cache : Cache Value
  buildKey : Args → String

variable (cached : Cached Value Args)

def Cached.wrapper (args : Args) : Task Value :=
  cached.cache.getOrSet (cached.buildKey args) (some (-1))

def Cached.invalidate (args : Args) : DeleteTask := cached.cache.delete (cached.buildKey args)

def DeleteTask.returned : DeleteTask → Bool
  | .done (.ok _) => true
  | _ => false

/-- The call awaits a `SET`. -/
def Task.stores : Task Value → Bool
  | .set _ _ _ _ => true
  | _ => false

/-- The call waits for the lock. -/
def Task.acquires : Task Value → Bool
  | .acquire _ _ _ _ => true
  | _ => false

/-- Redis executes the command a call awaits. It refuses a `SET` whose `px` is not
positive. -/
def Task.execute (decodeResponses : Bool) (id : ℕ) (entry : Option Bytes) (holder : Option ℕ)
    (task : Task Value) : Option (Answer Value × Option Bytes × Option ℕ) :=
  match task with
  | .set _ _ (some px) _ =>
      if px ≤ 0 then
        some (.stored (.error { number := 0, isRedisError := true, derives := fun _ => rfl }),
          entry, holder)
      else task.serve decodeResponses id entry holder
  | _ => task.serve decodeResponses id entry holder

/-- The answer is that of a `GET`. -/
def Answer.fetches : Answer Value → Bool
  | .got _ => true
  | _ => false

/-- The answer is that of a `SET` that was executed. -/
def Answer.stores : Answer Value → Bool
  | .stored (.ok _) => true
  | _ => false

end Definitions

namespace Invalidation

/-! ## The system -/

structure Call (Value : Type) where
  task : Task Value
  reply : Option (Answer Value) := none
  /-- The version promised when the call began. -/
  due : ℕ
  readAt : Option ℕ := none
  carries : ℕ := 0

structure Deletion where
  task : DeleteTask
  reply : Option (Except Exc ℤ) := none
  /-- The version at which the delete was issued. -/
  issued : ℕ

structure Sys (Value : Type) where
  entry : Option Bytes
  holder : Option ℕ := none
  calls : ℕ → Option (Call Value) := fun _ => none
  deletes : ℕ → Option Deletion := fun _ => none
  version : ℕ := 0
  origin : ℕ := 0
  /-- The latest version at which an executed `DEL` was issued. -/
  dropped : ℕ := 0
  /-- The latest version at which a delete that has returned was issued. -/
  promised : ℕ := 0

inductive Label (Value Args : Type) where
  | getOrSet (id : ℕ) (ttlSeconds : Option ℚ)
  | wrapper (id : ℕ) (args : Args)
  | redis (id : ℕ)
  | refuse (id : ℕ)
  | resume (id : ℕ)
  | read (id : ℕ)
  | factory (id : ℕ) (result : Except Exc Value)
  | change
  | delete (id : ℕ)
  | invalidate (id : ℕ) (args : Args)
  | drop (id : ℕ)
  | finish (id : ℕ)
  | expire
  | unlock

variable {Value Args : Type}

/-- The version behind what a factory run leaves in hand. A value was read from the
source. -/
def Call.source (p : Call Value) : Except Exc Value → Option ℕ
  | .ok _ => p.readAt
  | .error _ => some p.carries

def Sys.put (s : Sys Value) (id : ℕ) (p : Call Value) : Sys Value :=
  { s with calls := Function.update s.calls id (some p) }

def Sys.putDeletion (s : Sys Value) (id : ℕ) (p : Deletion) : Sys Value :=
  { s with deletes := Function.update s.deletes id (some p) }

/-- A call begins. -/
def Sys.begin (s : Sys Value) (id : ℕ) (task : Task Value) : Option (Sys Value) :=
  match s.calls id with
  | none => some (s.put id { task, due := s.promised })
  | some _ => none

/-- A delete is issued. -/
def Sys.issue (s : Sys Value) (id : ℕ) (task : DeleteTask) : Option (Sys Value) :=
  match s.deletes id with
  | none => some (s.putDeletion id { task, issued := s.version })
  | some _ => none

variable (cached : Cached Value Args) (key : String) (decodeResponses : Bool)

def Sys.step (s : Sys Value) : Label Value Args → Option (Sys Value)
  | .getOrSet id ttlSeconds => s.begin id (cached.cache.getOrSet key ttlSeconds)
  | .wrapper id args =>
      if cached.buildKey args = key then s.begin id (cached.wrapper args) else none
  | .redis id => (s.calls id).bind fun p =>
      match p.reply with
      | some _ => none
      | none => (p.task.execute decodeResponses id s.entry s.holder).map
          fun (answer, entry, holder) =>
            { s.put id { p with
                reply := some answer
                carries := if answer.fetches then s.origin else p.carries } with
              entry, holder
              origin := if answer.stores then p.carries else s.origin }
  | .refuse id => (s.calls id).bind fun p =>
      if p.task.acquires ∧ p.reply.isNone then
        some (s.put id { p with reply := some (.acquired (.ok false)) })
      else none
  | .resume id => (s.calls id).bind fun p =>
      p.reply.bind fun answer => (p.task.step answer).map
        fun task => s.put id { p with task, reply := none }
  | .read id => (s.calls id).bind fun p =>
      if p.task.computing ∧ p.readAt.isNone then
        some (s.put id { p with readAt := some s.version })
      else none
  | .factory id result => (s.calls id).bind fun p =>
      (p.source result).bind fun carries => (p.task.step (.made result)).map
        fun task => s.put id { p with task, carries, reply := none, readAt := none }
  | .change => some { s with version := s.version + 1 }
  | .delete id => s.issue id (cached.cache.delete key)
  | .invalidate id args =>
      if cached.buildKey args = key then s.issue id (cached.invalidate args) else none
  | .drop id => (s.deletes id).bind fun p =>
      match p.task, p.reply with
      | .delete _ _, none =>
          some { s.putDeletion id { p with reply := some (.ok (if s.entry.isSome then 1 else 0)) }
            with entry := none, dropped := max s.dropped p.issued }
      | _, _ => none
  | .finish id => (s.deletes id).bind fun p =>
      match p.task, p.reply with
      | .delete _ k, some reply =>
          some { s.putDeletion id { p with task := k reply, reply := none } with
            promised := if (k reply).returned then max s.promised p.issued else s.promised }
      | _, _ => none
  | .expire => some { s with entry := none }
  | .unlock => some { s with holder := none }

/-- Every call that has returned a value was given what it is owed. -/
def Fresh (s : Sys Value) : Prop :=
  ∀ id p value, s.calls id = some p → p.task.result = some (.ok value) → p.due ≤ p.carries

/-- A `SET` that Redis executes stores a value read at no earlier a version than the
`DEL`s already executed were issued at. -/
def Timely (s : Sys Value) : Label Value Args → Prop
  | .redis id => ∀ p ∈ s.calls id, p.task.stores → s.dropped ≤ p.carries
  | _ => True

instance Timely.decidable (s : Sys Value) : ∀ l : Label Value Args, Decidable (Timely s l)
  | .redis id =>
      inferInstanceAs (Decidable (∀ p ∈ s.calls id, p.task.stores → s.dropped ≤ p.carries))
  | .getOrSet _ _ | .wrapper _ _ | .refuse _ | .resume _ | .read _ | .factory _ _ | .change
  | .delete _ | .invalidate _ _ | .drop _ | .finish _ | .expire | .unlock => isTrue trivial

/-! ## Values in hand -/

/-- The call has a value that it will return unless Redis or the serializer fails. -/
def InHand : Phase Value → Option (Answer Value) → Prop
  | .lookingUp, some (.got reply) => ∃ value, cached.cache.looked reply = .ok (some value)
  | .rechecking, some (.got reply) => ∃ value, cached.cache.looked reply = .ok (some value)
  | .computing _, some _ => True
  | .storing _ _ _, _ => True
  | .releasing result, _ => ∃ value, result = .ok value
  | .ended result, _ => ∃ value, result = .ok value
  | _, _ => False

variable {cached} {key} {decodeResponses}

theorem inHand_caught {held : Bool} {result : Except Exc Value}
    (inHand : InHand cached (.caught held result) none) : ∃ value, result = .ok value := by
  cases result with
  | ok value => exact ⟨value, rfl⟩
  | error e =>
      simp only [Phase.caught] at inHand
      split at inHand
      · cases inHand
      · split at inHand
        · split at inHand
          · obtain ⟨value, same⟩ := inHand
            cases same
          · cases inHand
        · obtain ⟨value, same⟩ := inHand
          cases same

theorem inHand_leave {held : Bool} {result : Except Exc Value}
    (inHand : InHand cached (.leave held result) none) : ∃ value, result = .ok value := by
  cases held with
  | true => exact inHand
  | false => exact inHand

theorem ok_of_afterRelease {result : Except Exc Value} {reply : Except Exc Unit} {value : Value}
    (after : afterRelease result reply = .ok value) : result = .ok value := by
  unfold afterRelease at after
  split at after
  · cases after
  · exact after

/-- After a reply a value is in hand only if it came with the reply or was there before. -/
theorem inHand_resume {phase next : Phase Value} {answer : Answer Value}
    (taken : phase.next cached.cache answer = some next) (inHand : InHand cached next none) :
    InHand cached phase (some answer) := by
  cases moves_of_next taken with
  | lookupRaised looked | recheckRaised looked =>
      obtain ⟨value, same⟩ := inHand
      cases same
  | hit looked | found looked => exact ⟨_, looked⟩
  | miss looked =>
      split at inHand
      · cases inHand
      · cases inHand
  | lockRaised | lockTimedOut =>
      obtain ⟨value, same⟩ := inHand_caught inHand
      cases same
  | locked => cases inHand
  | stillMissing looked => cases inHand
  | factoryRaised => trivial
  | unserializable dumped => trivial
  | serialized dumped => trivial
  | stored => trivial
  | released =>
      obtain ⟨value, after⟩ := inHand_caught inHand
      exact ⟨value, ok_of_afterRelease after⟩

/-- A factory that raises leaves nothing in hand. -/
theorem inHand_made {phase next : Phase Value} {result : Except Exc Value}
    (taken : phase.next cached.cache (.made result) = some next)
    (inHand : InHand cached next none) : ∃ value, result = .ok value := by
  obtain ⟨held, rfl⟩ := phase_of_made taken
  cases result with
  | ok value => exact ⟨value, rfl⟩
  | error e =>
      obtain rfl := Option.some.inj taken
      exact inHand_leave inHand

/-! ## The invariant -/

variable (cached key) in
/-- A call is owed no more than the executed `DEL`s, the factory it runs has read the
source since it began, and the value it has in hand is what it is owed. -/
structure Sound (dropped : ℕ) (p : Call Value) : Prop where
  due : p.due ≤ dropped
  read : ∀ version, p.readAt = some version → p.due ≤ version
  stands : ∃ phase, (∃ ttlSeconds, p.task = cached.cache.task key ttlSeconds phase) ∧
    (InHand cached phase p.reply → p.due ≤ p.carries)

/-- A delete whose `DEL` has been executed is counted. -/
structure Counted (version dropped : ℕ) (p : Deletion) : Prop where
  issued : p.issued ≤ version
  executed : p.reply.isSome → p.issued ≤ dropped

variable (cached key) in
structure Coherent (s : Sys Value) : Prop where
  promised : s.promised ≤ s.dropped
  dropped : s.dropped ≤ s.version
  entry : s.entry.isSome → s.dropped ≤ s.origin
  calls : ∀ id p, s.calls id = some p → Sound cached key s.dropped p
  deletes : ∀ id p, s.deletes id = some p → Counted s.version s.dropped p

theorem Sound.mono {dropped later : ℕ} {p : Call Value} (sound : Sound cached key dropped p)
    (le : dropped ≤ later) : Sound cached key later p :=
  ⟨sound.due.trans le, sound.read, sound.stands⟩

theorem Counted.mono {version version' dropped dropped' : ℕ} {p : Deletion}
    (counted : Counted version dropped p) (versions : version ≤ version')
    (drops : dropped ≤ dropped') : Counted version' dropped' p :=
  ⟨counted.issued.trans versions, fun executed => (counted.executed executed).trans drops⟩

/-- **Coherent states are fresh.** -/
theorem Coherent.fresh {s : Sys Value} (coherent : Coherent cached key s) : Fresh s := by
  intro id p value there finished
  obtain ⟨phase, ⟨ttlSeconds, task⟩, owed⟩ := (coherent.calls id p there).stands
  rw [task, result_task] at finished
  cases phase with
  | ended result => exact owed ⟨value, Option.some.inj finished⟩
  | _ => cases finished

theorem coherent_start (entry : Option Bytes) :
    Coherent cached key ({ entry } : Sys Value) := by
  refine ⟨le_refl 0, le_refl 0, fun _ => le_refl 0, ?_, ?_⟩
  · intro id p there
    cases there
  · intro id p there
    cases there

/-- One call moves, and what is known of the entry stays true. -/
theorem Coherent.move {s t : Sys Value} {id : ℕ} {p : Call Value}
    (coherent : Coherent cached key s) (calls : t.calls = Function.update s.calls id (some p))
    (deletes : t.deletes = s.deletes) (version : t.version = s.version)
    (dropped : t.dropped = s.dropped) (promised : t.promised = s.promised)
    (entry : t.entry.isSome → s.dropped ≤ t.origin) (sound : Sound cached key s.dropped p) :
    Coherent cached key t := by
  refine ⟨?_, ?_, ?_, fun other q there => ?_, fun other q there => ?_⟩
  · rw [promised, dropped]
    exact coherent.promised
  · rw [dropped, version]
    exact coherent.dropped
  · rw [dropped]
    exact entry
  · rw [dropped]
    rw [calls] at there
    by_cases same : other = id
    · subst same
      rw [Function.update_self] at there
      obtain rfl := Option.some.inj there
      exact sound
    · rw [Function.update_of_ne same] at there
      exact coherent.calls other q there
  · rw [version, dropped]
    rw [deletes] at there
    exact coherent.deletes other q there

/-- A call moves that does not touch the entry. -/
theorem Coherent.put {s : Sys Value} (coherent : Coherent cached key s) {id : ℕ}
    {p : Call Value} (sound : Sound cached key s.dropped p) : Coherent cached key (s.put id p) :=
  coherent.move rfl rfl rfl rfl rfl coherent.entry sound

/-- One delete moves, and no version goes back. -/
theorem Coherent.moveDeletion {s t : Sys Value} {id : ℕ} {p : Deletion}
    (coherent : Coherent cached key s) (calls : t.calls = s.calls)
    (deletes : t.deletes = Function.update s.deletes id (some p))
    (version : t.version = s.version) (drops : s.dropped ≤ t.dropped)
    (promised : t.promised ≤ t.dropped) (dropped : t.dropped ≤ t.version)
    (entry : t.entry.isSome → t.dropped ≤ t.origin)
    (counted : Counted t.version t.dropped p) : Coherent cached key t := by
  refine ⟨promised, dropped, entry, fun other q there => ?_, fun other q there => ?_⟩
  · rw [calls] at there
    exact (coherent.calls other q there).mono drops
  · rw [deletes] at there
    by_cases same : other = id
    · subst same
      rw [Function.update_self] at there
      obtain rfl := Option.some.inj there
      exact counted
    · rw [Function.update_of_ne same] at there
      exact (coherent.deletes other q there).mono version.ge drops

/-! ## The steps -/

theorem coherent_begin {s next : Sys Value} {id : ℕ} {ttlSeconds : Option ℚ}
    (coherent : Coherent cached key s)
    (taken : s.begin id (cached.cache.getOrSet key ttlSeconds) = some next) :
    Coherent cached key next := by
  simp only [Sys.begin] at taken
  split at taken
  · obtain rfl := Option.some.inj taken
    refine coherent.put ⟨coherent.promised, ?_, .lookingUp, ⟨ttlSeconds, rfl⟩, ?_⟩
    · intro version none_
      cases none_
    · intro inHand
      cases inHand
  · cases taken

theorem coherent_issue {s next : Sys Value} {id : ℕ} {task : DeleteTask}
    (coherent : Coherent cached key s) (taken : s.issue id task = some next) :
    Coherent cached key next := by
  simp only [Sys.issue] at taken
  split at taken
  · obtain rfl := Option.some.inj taken
    refine coherent.moveDeletion rfl rfl rfl (le_refl _) coherent.promised coherent.dropped
      coherent.entry ⟨le_refl _, fun executed => ?_⟩
    cases executed
  · cases taken

variable (cached decodeResponses) in
/-- What Redis does with the command of a call at a phase: the answer, and the entry
after it. -/
inductive Executes (entry : Option Bytes) (phase : Phase Value) :
    Answer Value → Option Bytes → Prop where
  | fetched (found : InHand cached phase (some (.got (readReply decodeResponses entry))) →
      entry.isSome) : Executes entry phase (.got (readReply decodeResponses entry)) entry
  | stored (raw : Bytes) (held : Bool) (value : Value) (text : String)
      (storing : phase = .storing held value text) :
      Executes entry phase (.stored (.ok ())) (some raw)
  | quiet (answer : Answer Value) (fetches : answer.fetches = false)
      (stores : answer.stores = false)
      (before : InHand cached phase (some answer) → InHand cached phase none) :
      Executes entry phase answer entry

theorem isSome_of_looked {entry : Option Bytes}
    (looked : ∃ value, cached.cache.looked (readReply decodeResponses entry) = .ok (some value)) :
    entry.isSome := by
  cases entry with
  | none =>
      obtain ⟨value, miss⟩ := looked
      cases miss
  | some stored => rfl

theorem executes_of_execute {id : ℕ} {phase : Phase Value} {ttlSeconds : Option ℚ}
    {answer : Answer Value} {entry entry' : Option Bytes} {holder holder' : Option ℕ}
    (served : (cached.cache.task key ttlSeconds phase).execute decodeResponses id entry holder =
      some (answer, entry', holder')) :
    Executes cached decodeResponses entry phase answer entry' := by
  cases phase with
  | lookingUp =>
      obtain ⟨rfl, rfl, rfl⟩ := answer_inj served
      exact .fetched isSome_of_looked
  | acquiring =>
      cases holder with
      | some other => cases served
      | none =>
          obtain ⟨rfl, rfl, rfl⟩ := answer_inj served
          exact .quiet _ rfl rfl fun inHand => inHand
  | rechecking =>
      obtain ⟨rfl, rfl, rfl⟩ := answer_inj served
      exact .fetched isSome_of_looked
  | computing held => cases served
  | storing held value raw =>
      simp only [Cache.task, Task.execute] at served
      split at served
      · split at served
        · obtain ⟨rfl, rfl, rfl⟩ := answer_inj served
          exact .quiet _ rfl rfl fun inHand => inHand
        · obtain ⟨rfl, rfl, rfl⟩ := answer_inj served
          exact .stored _ held value raw rfl
      · obtain ⟨rfl, rfl, rfl⟩ := answer_inj served
        exact .stored _ held value raw rfl
  | releasing result =>
      simp only [Cache.task, releaseLock, Task.execute, Task.serve] at served
      split at served
      · obtain ⟨rfl, rfl, rfl⟩ := answer_inj served
        exact .quiet _ rfl rfl fun inHand => inHand
      · obtain ⟨rfl, rfl, rfl⟩ := answer_inj served
        exact .quiet _ rfl rfl fun inHand => inHand
  | ended result => cases served

/-- Redis executes a command. A value found is as late as the entry, and a value stored
in time makes the entry as late as the executed `DEL`s. -/
theorem coherent_redis {s next : Sys Value} {id : ℕ}
    (timely : Timely s (.redis id : Label Value Args)) (coherent : Coherent cached key s)
    (taken : s.step cached key decodeResponses (.redis id) = some next) :
    Coherent cached key next := by
  obtain ⟨p, there, moved⟩ := Option.bind_eq_some_iff.mp taken
  obtain ⟨due, read, phase, ⟨ttlSeconds, task⟩, owed⟩ := coherent.calls id p there
  cases pending : p.reply with
  | some answer =>
      rw [pending] at moved
      cases moved
  | none =>
      rw [pending] at moved owed
      obtain ⟨⟨answer, entry, holder⟩, served, rfl⟩ := Option.map_eq_some_iff.mp moved
      rw [task] at served
      cases executes_of_execute served with
      | fetched found =>
          refine coherent.move rfl rfl rfl rfl rfl coherent.entry ⟨due, read, phase,
            ⟨ttlSeconds, task⟩, fun inHand => ?_⟩
          exact due.trans (coherent.entry (found inHand))
      | stored raw held value text storing =>
          subst storing
          have inTime : s.dropped ≤ p.carries := by
            refine timely p there ?_
            rw [task]
            rfl
          exact coherent.move rfl rfl rfl rfl rfl (fun _ => inTime)
            ⟨due, read, _, ⟨ttlSeconds, task⟩, fun _ => owed trivial⟩
      | quiet answer fetches stores before =>
          refine coherent.move rfl rfl rfl rfl rfl ?_ ⟨due, read, phase, ⟨ttlSeconds, task⟩, ?_⟩
          · simp only [stores, Bool.false_eq_true, if_false]
            exact coherent.entry
          · intro inHand
            simp only [fetches, Bool.false_eq_true, if_false]
            exact owed (before inHand)

theorem coherent_refuse {s next : Sys Value} {id : ℕ} (coherent : Coherent cached key s)
    (taken : s.step cached key decodeResponses (.refuse id) = some next) :
    Coherent cached key next := by
  obtain ⟨p, there, moved⟩ := Option.bind_eq_some_iff.mp taken
  obtain ⟨due, read, phase, ⟨ttlSeconds, task⟩, owed⟩ := coherent.calls id p there
  split at moved
  · rename_i waits
    obtain rfl := Option.some.inj moved
    refine coherent.put ⟨due, read, phase, ⟨ttlSeconds, task⟩, fun inHand => ?_⟩
    have acquires := waits.1
    rw [task] at acquires
    cases phase with
    | acquiring => cases inHand
    | lookingUp => cases acquires
    | _ => cases acquires
  · cases moved

theorem coherent_resume {s next : Sys Value} {id : ℕ} (coherent : Coherent cached key s)
    (taken : s.step cached key decodeResponses (.resume id) = some next) :
    Coherent cached key next := by
  obtain ⟨p, there, moved⟩ := Option.bind_eq_some_iff.mp taken
  obtain ⟨answer, pending, moved⟩ := Option.bind_eq_some_iff.mp moved
  obtain ⟨task', stepped, rfl⟩ := Option.map_eq_some_iff.mp moved
  obtain ⟨due, read, phase, ⟨ttlSeconds, task⟩, owed⟩ := coherent.calls id p there
  rw [task, task_step] at stepped
  obtain ⟨next, goes, rfl⟩ := Option.map_eq_some_iff.mp stepped
  rw [pending] at owed
  refine coherent.put ⟨due, read, next, ⟨ttlSeconds, rfl⟩, fun inHand => ?_⟩
  exact owed (inHand_resume goes inHand)

theorem coherent_read {s next : Sys Value} {id : ℕ} (coherent : Coherent cached key s)
    (taken : s.step cached key decodeResponses (.read id) = some next) :
    Coherent cached key next := by
  obtain ⟨p, there, moved⟩ := Option.bind_eq_some_iff.mp taken
  obtain ⟨due, read, stands⟩ := coherent.calls id p there
  split at moved
  · obtain rfl := Option.some.inj moved
    refine coherent.put ⟨due, fun version reads => ?_, stands⟩
    obtain rfl := Option.some.inj reads
    exact due.trans coherent.dropped
  · cases moved

theorem coherent_factory {s next : Sys Value} {id : ℕ} {result : Except Exc Value}
    (coherent : Coherent cached key s)
    (taken : s.step cached key decodeResponses (.factory id result) = some next) :
    Coherent cached key next := by
  obtain ⟨p, there, moved⟩ := Option.bind_eq_some_iff.mp taken
  obtain ⟨carries, source, moved⟩ := Option.bind_eq_some_iff.mp moved
  obtain ⟨task', stepped, rfl⟩ := Option.map_eq_some_iff.mp moved
  obtain ⟨due, read, phase, ⟨ttlSeconds, task⟩, owed⟩ := coherent.calls id p there
  rw [task, task_step] at stepped
  obtain ⟨next, goes, rfl⟩ := Option.map_eq_some_iff.mp stepped
  refine coherent.put ⟨due, ?_, next, ⟨ttlSeconds, rfl⟩, fun inHand => ?_⟩
  · intro version reads
    cases reads
  · obtain ⟨value, rfl⟩ := inHand_made goes inHand
    exact read carries source

theorem coherent_drop {s next : Sys Value} {id : ℕ} (coherent : Coherent cached key s)
    (taken : s.step cached key decodeResponses (.drop id) = some next) :
    Coherent cached key next := by
  obtain ⟨p, there, moved⟩ := Option.bind_eq_some_iff.mp taken
  obtain ⟨issued, executed⟩ := coherent.deletes id p there
  split at moved
  · obtain rfl := Option.some.inj moved
    refine coherent.moveDeletion rfl rfl rfl (le_max_left _ _)
      (coherent.promised.trans (le_max_left _ _)) (max_le coherent.dropped issued) ?_
      ⟨issued, fun _ => le_max_right _ _⟩
    intro present
    cases present
  · cases moved

/-- A delete returns: its `DEL` has been executed. -/
theorem coherent_finish {s next : Sys Value} {id : ℕ} (coherent : Coherent cached key s)
    (taken : s.step cached key decodeResponses (.finish id) = some next) :
    Coherent cached key next := by
  obtain ⟨p, there, moved⟩ := Option.bind_eq_some_iff.mp taken
  obtain ⟨issued, executed⟩ := coherent.deletes id p there
  split at moved
  · rename_i k reply task replied
    obtain rfl := Option.some.inj moved
    have done : p.issued ≤ s.dropped := executed (by rw [replied]; rfl)
    refine coherent.moveDeletion rfl rfl rfl (le_refl _) ?_ coherent.dropped coherent.entry
      ⟨issued, fun replied => by cases replied⟩
    change (if (k reply).returned then max s.promised p.issued else s.promised) ≤ s.dropped
    split
    · exact max_le coherent.promised done
    · exact coherent.promised
  · cases moved

/-- Every step whose `SET` is in time keeps the state coherent. -/
theorem coherent_step {s next : Sys Value} {l : Label Value Args} (timely : Timely s l)
    (coherent : Coherent cached key s) (taken : s.step cached key decodeResponses l = some next) :
    Coherent cached key next := by
  cases l with
  | getOrSet id ttlSeconds => exact coherent_begin coherent taken
  | wrapper id args =>
      simp only [Sys.step] at taken
      split at taken
      · rename_i same
        subst same
        exact coherent_begin coherent taken
      · cases taken
  | redis id => exact coherent_redis timely coherent taken
  | refuse id => exact coherent_refuse coherent taken
  | resume id => exact coherent_resume coherent taken
  | read id => exact coherent_read coherent taken
  | factory id result => exact coherent_factory coherent taken
  | change =>
      obtain rfl := Option.some.inj taken
      refine ⟨coherent.promised, coherent.dropped.trans (Nat.le_succ _), coherent.entry,
        coherent.calls, fun id p there => ?_⟩
      exact (coherent.deletes id p there).mono (Nat.le_succ _) (le_refl _)
  | delete id => exact coherent_issue coherent taken
  | invalidate id args =>
      simp only [Sys.step] at taken
      split at taken
      · exact coherent_issue coherent taken
      · cases taken
  | drop id => exact coherent_drop coherent taken
  | finish id => exact coherent_finish coherent taken
  | expire =>
      obtain rfl := Option.some.inj taken
      refine ⟨coherent.promised, coherent.dropped, fun present => ?_, coherent.calls,
        coherent.deletes⟩
      cases present
  | unlock =>
      obtain rfl := Option.some.inj taken
      exact ⟨coherent.promised, coherent.dropped, coherent.entry, coherent.calls,
        coherent.deletes⟩

/-! ## No stale value after a delete -/

/-- **No stale value is returned after a delete.** In every run in which each `SET` is
executed in time, at every moment every call that has returned a value was given one that
a factory read from the source at no earlier a version than any delete was issued at that
had returned when the call began. -/
theorem no_stale_after_delete (cached : Cached Value Args) (key : String)
    (decodeResponses : Bool) (entry : Option Bytes) (labels : List (Label Value Args))
    (timely : EveryStep (Sys.step cached key decodeResponses) Timely { entry } labels) :
    EveryState (Sys.step cached key decodeResponses) Fresh { entry } labels := by
  have preserved : ∀ (s : Sys Value) (l : Label Value Args) (next : Sys Value), Timely s l →
      Coherent cached key s → s.step cached key decodeResponses l = some next →
      Coherent cached key next :=
    fun _ _ _ timely coherent taken => coherent_step timely coherent taken
  have every := everyState_of_preserved preserved timely (coherent_start entry)
  exact every.mono fun _ coherent => coherent.fresh

/-- **An entry older than a delete is served.** Once the entry is older than what a
delete that has returned promised, a call that begins is given it at its first lookup. -/
theorem old_entry_served {s : Sys Value} {id : ℕ} {raw : String} {value : Value}
    (entry : s.entry = some (encode raw)) (loads : cached.cache.serializer.loads raw = .ok value)
    (vacant : s.calls id = none) (older : s.origin < s.promised) (ttlSeconds : Option ℚ) :
    ∃ t ∈ exec (Sys.step cached key decodeResponses) s
        [.getOrSet id ttlSeconds, .redis id, .resume id],
      (∃ p ∈ t.calls id, p.task.result = some (.ok value)) ∧ ¬ Fresh t := by
  have looked : cached.cache.looked (readReply decodeResponses s.entry) = .ok (some value) :=
    sees_of_stored (s := { entry := s.entry }) entry loads
  let asking : Call Value := { task := cached.cache.getOrSet key ttlSeconds, due := s.promised }
  let answered : Call Value :=
    { asking with reply := some (.got (readReply decodeResponses s.entry)), carries := s.origin }
  let given : Call Value := { answered with task := .done (.ok value), reply := none }
  have begun : s.step cached key decodeResponses (.getOrSet id ttlSeconds) =
      some (s.put id asking) := by
    simp only [Sys.step, Sys.begin, vacant]
    rfl
  have fetched : (s.put id asking).step cached key decodeResponses (.redis id) =
      some ((s.put id asking).put id answered) := by
    simp only [Sys.step, Sys.put, Function.update_self]
    rfl
  have resumed : ((s.put id asking).put id answered).step cached key decodeResponses
      (.resume id) = some (((s.put id asking).put id answered).put id given) := by
    have goes : answered.task.step (.got (readReply decodeResponses s.entry)) =
        some (.done (.ok value)) := by
      simp [answered, asking, Cache.getOrSet, Cache.lookup, Task.step, looked]
    have there : ((s.put id asking).put id answered).calls id = some answered :=
      Function.update_self ..
    have replied : answered.reply = some (.got (readReply decodeResponses s.entry)) := rfl
    simp only [Sys.step, there, replied, Option.bind_some, goes, Option.map_some]
    rfl
  have there : (((s.put id asking).put id answered).put id given).calls id = some given :=
    Function.update_self ..
  refine ⟨_, ?_, ⟨given, there, rfl⟩, fun fresh => ?_⟩
  · exact exec_cons_eq_some.mpr ⟨_, begun, exec_cons_eq_some.mpr ⟨_, fetched,
      exec_cons_eq_some.mpr ⟨_, resumed, rfl⟩⟩⟩
  · have owed := fresh id given value there rfl
    exact absurd owed (Nat.not_le.mpr older)

/-- A function that is cached under its argument. -/
def products : Cached String String := ⟨texts, id⟩

/-- A call awaits a command, gets it and goes on. -/
def served (id : ℕ) : List (Label String String) := [.redis id, .resume id]

/-- A call looks up, acquires the lock and looks up again; its factory reads the source. -/
def misses (id : ℕ) : List (Label String String) :=
  [.wrapper id "p1"] ++ served id ++ served id ++ served id ++ [.read id]

/-- The factory returns, and the call stores the value and releases the lock. -/
def stores (id : ℕ) (value : String) : List (Label String String) :=
  [.factory id (.ok value)] ++ served id ++ served id

/-- Call 0 stores the value it read before the change; then the `DEL` is executed, and
call 1 reads the source again. -/
def storedBeforeDelete : List (Label String String) :=
  misses 0 ++ [.change, .invalidate 0 "p1"] ++ stores 0 "old" ++ [.drop 0, .finish 0] ++
    misses 1 ++ stores 1 "new"

theorem stored_before_delete :
    ∃ s ∈ exec (Sys.step products "p1" false) { entry := none } storedBeforeDelete,
      (∃ p ∈ s.calls 1, p.due = 1 ∧ p.task.result = some (.ok "new")) ∧
        EveryState (Sys.step products "p1" false) Fresh { entry := none } storedBeforeDelete := by
  obtain ⟨s, run, returned⟩ :
      ∃ s ∈ exec (Sys.step products "p1" false) { entry := none } storedBeforeDelete,
        ∃ p ∈ s.calls 1, p.due = 1 ∧ p.task.result = some (.ok "new") := by
    decide +kernel
  exact ⟨s, run, returned, no_stale_after_delete products "p1" false none storedBeforeDelete
    (by decide +kernel)⟩

/-- Call 0 stores the value it read before the change after the `DEL`, and call 1 finds
it. -/
def storedAfterDelete : List (Label String String) :=
  misses 0 ++ [.change, .invalidate 0 "p1", .drop 0, .finish 0] ++ stores 0 "old" ++
    [.wrapper 1 "p1"] ++ served 1

/-- **A stale value after a delete.** The delete was issued after the change and has
returned when call 1 begins, and call 1 returns what was read before the change. -/
theorem stored_after_delete :
    ∃ s ∈ exec (Sys.step products "p1" false) { entry := none } storedAfterDelete,
      (∃ p ∈ s.calls 1, p.task.result = some (.ok "old") ∧ p.due = 1 ∧ p.carries = 0) ∧
        ¬ Fresh s := by
  obtain ⟨s, run, p, there, finished, due, carries⟩ :
      ∃ s ∈ exec (Sys.step products "p1" false) { entry := none } storedAfterDelete,
        ∃ p ∈ s.calls 1, p.task.result = some (.ok "old") ∧ p.due = 1 ∧ p.carries = 0 := by
    decide +kernel
  refine ⟨s, run, ⟨p, there, finished, due, carries⟩, fun fresh => ?_⟩
  have owed := fresh 1 p "old" there finished
  rw [due, carries] at owed
  exact absurd owed (by decide)

end Invalidation

end PyCommon.CacheAside
