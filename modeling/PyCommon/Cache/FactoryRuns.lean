import PyCommon.Cache.CacheAside

/-!
# How often a call runs its factory

Under the lock every exception of the factory passes through the clauses written
for the lock. `except RedisError` asks whether the lock was held and lets the
exception go; `except LockAcquireError` does not ask. So a factory that raises a
`LockAcquireError`, as one does that takes another `redis_lock` in vain, is taken for
a lock that could not be acquired, and is run again.

That is the only way. With Redis failing or timing out in any pattern, a call runs
its factory at most once and hands on what it raises exactly when nothing under a
lock that was acquired raised a `LockAcquireError` (`runs_once_iff`).
-/

set_option autoImplicit false

namespace PyCommon.CacheAside

open StepSystem

variable {Value : Type}

/-! ## What the answers say -/

/-- The outcome of a factory run. -/
def Answer.run : Answer Value → Option (Except Exc Value)
  | .made result => some result
  | _ => none

/-- The lock was acquired. -/
def Answer.acquires : Answer Value → Bool
  | .acquired (.ok reply) => reply
  | _ => false

/-- Whatever Redis raised is a `RedisError`. -/
def Answer.RedisFault : Answer Value → Prop
  | .got (.error e) => e.isRedisError
  | .stored (.error e) => e.isRedisError
  | .acquired (.error e) => e.isRedisError
  | .released (.error e) => e.isRedisError
  | _ => True

/-- The outcomes of the factory runs, in order. -/
def runs (answers : List (Answer Value)) : List (Except Exc Value) := answers.filterMap Answer.run

/-- The factory runs that have begun. -/
def invocations (answers : List (Answer Value)) (task : Task Value) : ℕ :=
  (runs answers).length + if task.computing then 1 else 0

/-- The factory is run at most once, and what it raises is what the caller receives. -/
structure RunsOnce (answers : List (Answer Value)) (task : Task Value) : Prop where
  once : invocations answers task ≤ 1
  passedOn : ∀ e, .error e ∈ runs answers → ∀ result, task.result = some result →
    result = .error e

variable (cache : Cache Value)

/-- The run raises a `LockAcquireError`, in the factory or, past the clause for
serialization errors, when its value is serialized. -/
def RaisesLockError : Except Exc Value → Prop
  | .error e => e.isLockAcquireError
  | .ok value => ∃ e, cache.serializer.dumps value = .error e ∧ ¬ e.isTypeOrValueError ∧
      e.isLockAcquireError

/-- If the lock was acquired, no factory run raises a `LockAcquireError`. -/
def NoLockErrorInside (acquired : Bool) (results : List (Except Exc Value)) : Prop :=
  acquired → ∀ result ∈ results, ¬ RaisesLockError cache result

variable {cache}

theorem NoLockErrorInside.of_append {acquired more : Bool} {results later : List (Except Exc Value)}
    (none : NoLockErrorInside cache (acquired || more) (results ++ later)) :
    NoLockErrorInside cache acquired results := by
  intro inside result member
  exact none (by simp [inside]) result (List.mem_append_left later member)

theorem noLockErrorInside_nil (acquired : Bool) :
    NoLockErrorInside cache acquired ([] : List (Except Exc Value)) :=
  fun _ _ member => absurd member List.not_mem_nil

/-! ## The invariant -/

variable (cache) in
/-- What a call has done at a phase: the factory runs that have ended and whether the
lock was acquired. On the way out of the lock a `LockAcquireError` is one that a
factory run raised. -/
def Expected (acquired : Bool) (results : List (Except Exc Value)) : Phase Value → Prop
  | .lookingUp => acquired = false ∧ results = []
  | .acquiring => acquired = false ∧ results = []
  | .rechecking => acquired = true ∧ results = []
  | .computing held => acquired = held ∧ results = []
  | .storing held value raw =>
      acquired = held ∧ results = [.ok value] ∧ cache.serializer.dumps value = .ok raw
  | .releasing result =>
      acquired = true ∧ results.length ≤ 1 ∧ (∀ e, .error e ∈ results → result = .error e) ∧
        ((∃ r ∈ results, RaisesLockError cache r) ↔
          ∃ e, result = .error e ∧ e.isLockAcquireError)
  | .ended result =>
      results.length ≤ 1 ∧ (∀ e, .error e ∈ results → result = .error e) ∧
        NoLockErrorInside cache acquired results

/-- The number of factory runs under way. -/
def Phase.computes : Phase Value → ℕ
  | .computing _ => 1
  | _ => 0

variable (cache) in
/-- Either the call has done what its phase says, or a `LockAcquireError` was mistaken
and a second run has begun. -/
def Accounted (acquired : Bool) (results : List (Except Exc Value)) (phase : Phase Value) : Prop :=
  Expected cache acquired results phase ∨
    ¬ NoLockErrorInside cache acquired results ∧ 2 ≤ results.length + phase.computes

theorem looked_of_redisFault {reply : Except Exc (Option Raw)} {e : Exc}
    (fault : (Answer.got reply : Answer Value).RedisFault)
    (looked : cache.looked reply = .error e) : ¬ e.isLockAcquireError := by
  rcases looked_eq_error looked with ⟨rfl, other⟩ | notException
  · exact absurd fault other
  · intro lockError
    exact notException (e.derives (.inl lockError))

theorem swallowRedisError_of_fault {reply : Except Exc Unit}
    (fault : ∀ e, reply = .error e → e.isRedisError) : swallowRedisError () reply = .ok () := by
  cases reply with
  | error e => simp [swallowRedisError, fault e rfl]
  | ok _ => rfl

/-- A call may end before it has run the factory. -/
theorem expected_ended_nil (acquired : Bool) (result : Except Exc Value) :
    Expected cache acquired [] (.ended result) :=
  ⟨Nat.zero_le 1, fun _ member => absurd member List.not_mem_nil, noLockErrorInside_nil acquired⟩

/-- Before the factory has run, the lock is left with no `LockAcquireError`. -/
theorem expected_releasing_nil {result : Except Exc Value}
    (other : ∀ e, result = .error e → ¬ e.isLockAcquireError) :
    Expected cache true [] (.releasing result) := by
  refine ⟨rfl, Nat.zero_le 1, fun _ member => absurd member List.not_mem_nil, ?_⟩
  constructor
  · rintro ⟨r, member, -⟩
    cases member
  · rintro ⟨e, same, mistaken⟩
    exact absurd mistaken (other e same)

/-- The computation under or outside the lock is over. -/
theorem expected_leave {held : Bool} {outcome result : Except Exc Value}
    (passedOn : ∀ e, outcome = .error e → result = .error e)
    (lockError : RaisesLockError cache outcome ↔ ∃ e, result = .error e ∧ e.isLockAcquireError) :
    Expected cache held [outcome] (.leave held result) := by
  have handed : ∀ e, .error e ∈ [outcome] → result = .error e := by
    intro e member
    exact passedOn e (List.mem_singleton.mp member).symm
  cases held with
  | true =>
      refine ⟨rfl, le_refl 1, handed, ?_⟩
      simpa using lockError
  | false => exact ⟨le_refl 1, handed, fun inside => absurd inside Bool.false_ne_true⟩

/-- The serializer refuses the value, or raises something else. -/
theorem expected_unserializable {held : Bool} {value : Value} {e : Exc}
    (dumped : cache.serializer.dumps value = .error e) :
    Expected cache held [.ok value] (.leave held ((serializeFailed e).map fun _ => value)) := by
  refine expected_leave (fun _ same => by cases same) ?_
  by_cases swallowed : e.isTypeOrValueError
  · simp [RaisesLockError, dumped, serializeFailed, swallowed, Except.map]
  · simp [RaisesLockError, dumped, serializeFailed, swallowed, Except.map]

theorem expected_stored {held : Bool} {value : Value} {raw : String} {reply : Except Exc Unit}
    (fault : (Answer.stored reply : Answer Value).RedisFault)
    (dumped : cache.serializer.dumps value = .ok raw) :
    Expected cache held [.ok value]
      (.leave held ((swallowRedisError () reply).map fun _ => value)) := by
  have swallowed : swallowRedisError () reply = .ok () := by
    apply swallowRedisError_of_fault
    rintro e rfl
    exact fault
  rw [swallowed]
  refine expected_leave (fun _ same => by cases same) ?_
  simp [RaisesLockError, dumped, Except.map]

/-- What was mistaken stays mistaken, and a run that has begun stays counted. -/
theorem mistaken_step {acquired : Bool} {results : List (Except Exc Value)}
    {phase next : Phase Value} {answer : Answer Value}
    (mistaken : ¬ NoLockErrorInside cache acquired results ∧ 2 ≤ results.length + phase.computes)
    (taken : phase.next cache answer = some next) :
    ¬ NoLockErrorInside cache (acquired || answer.acquires) (results ++ answer.run.toList) ∧
      2 ≤ (results ++ answer.run.toList).length + next.computes := by
  refine ⟨fun inside => mistaken.1 inside.of_append, ?_⟩
  have counted : phase.computes ≤ answer.run.toList.length + next.computes := by
    cases phase with
    | computing held =>
        cases answer with
        | made result => exact Nat.le_add_right 1 _
        | _ => cases taken
    | _ => exact Nat.zero_le _
  rw [List.length_append]
  have before := mistaken.2
  omega

/-- The clauses around the lock mistake a `LockAcquireError`, and nothing else, for a
lock that could not be acquired. -/
theorem accounted_caught {results : List (Except Exc Value)} {result : Except Exc Value}
    (expected : Expected cache true results (.releasing result)) :
    Accounted cache true results (.caught true result) := by
  obtain ⟨-, atMostOne, handed, lockError⟩ := expected
  have inside : (∀ e, result = .error e → ¬ e.isLockAcquireError) →
      NoLockErrorInside cache true results := by
    intro other _ r member raised
    obtain ⟨e, same, mistaken⟩ := lockError.mp ⟨r, member, raised⟩
    exact other e same mistaken
  cases result with
  | ok value => exact .inl ⟨atMostOne, handed, inside fun _ same => by cases same⟩
  | error e =>
      by_cases mistaken : e.isLockAcquireError
      · obtain ⟨r, member, raised⟩ := lockError.mpr ⟨e, rfl, mistaken⟩
        refine .inr ⟨fun none => none rfl r member raised, ?_⟩
        have begun := List.length_pos_of_mem member
        simp only [Phase.caught, if_pos mistaken, Phase.computes]
        omega
      · have passes : Phase.caught true (.error e) = (.ended (.error e) : Phase Value) := by
          simp [Phase.caught, mistaken]
        rw [passes]
        refine .inl ⟨atMostOne, handed, inside fun raised same => ?_⟩
        obtain rfl := Except.error.inj same
        exact mistaken

/-- What keeps the lock from being acquired has run no factory. -/
theorem expected_refused (e : Exc) :
    Expected cache false ([] : List (Except Exc Value)) (.caught false (.error e)) := by
  simp only [Phase.caught]
  split
  · exact ⟨rfl, rfl⟩
  · split
    · exact ⟨rfl, rfl⟩
    · exact expected_ended_nil _ _

/-- Every answer keeps the account. -/
theorem accounted_step {acquired : Bool} {results : List (Except Exc Value)}
    {phase next : Phase Value} {answer : Answer Value} (fault : answer.RedisFault)
    (expected : Expected cache acquired results phase)
    (taken : phase.next cache answer = some next) :
    Accounted cache (acquired || answer.acquires) (results ++ answer.run.toList) next := by
  have kept : ∀ {results : List (Except Exc Value)} {phase : Phase Value},
      Expected cache acquired results phase →
        Accounted cache (acquired || false) results phase := by
    intro results phase expected
    rw [Bool.or_false]
    exact .inl expected
  cases moves_of_next taken with
  | lookupRaised looked | hit looked =>
      obtain ⟨rfl, rfl⟩ := expected
      exact .inl (expected_ended_nil _ _)
  | miss looked =>
      obtain ⟨rfl, rfl⟩ := expected
      left
      split
      · exact ⟨rfl, rfl⟩
      · exact ⟨rfl, rfl⟩
  | lockRaised | lockTimedOut =>
      obtain ⟨rfl, rfl⟩ := expected
      exact .inl (expected_refused _)
  | locked =>
      obtain ⟨rfl, rfl⟩ := expected
      exact .inl ⟨rfl, rfl⟩
  | recheckRaised looked =>
      obtain ⟨rfl, rfl⟩ := expected
      refine .inl (expected_releasing_nil fun raised same => ?_)
      obtain rfl := Except.error.inj same
      exact looked_of_redisFault fault looked
  | found looked =>
      obtain ⟨rfl, rfl⟩ := expected
      exact .inl (expected_releasing_nil fun _ same => by cases same)
  | stillMissing looked =>
      obtain ⟨rfl, rfl⟩ := expected
      exact .inl ⟨rfl, rfl⟩
  | factoryRaised =>
      obtain ⟨rfl, rfl⟩ := expected
      refine kept (expected_leave (fun _ same => same) ?_)
      simp [RaisesLockError]
  | unserializable dumped =>
      obtain ⟨rfl, rfl⟩ := expected
      exact kept (expected_unserializable dumped)
  | serialized dumped =>
      obtain ⟨rfl, rfl⟩ := expected
      exact kept ⟨rfl, rfl, dumped⟩
  | stored =>
      obtain ⟨rfl, rfl, dumped⟩ := expected
      exact kept (expected_stored fault dumped)
  | @released result reply =>
      have swallowed : afterRelease result reply = result := by
        rw [afterRelease, swallowRedisError_of_fault]
        rintro e rfl
        exact fault
      obtain rfl : acquired = true := expected.1
      change Accounted cache (true || false) (results ++ []) _
      rw [Bool.or_false, List.append_nil, swallowed]
      exact accounted_caught expected

theorem runs_cons (answer : Answer Value) (answers : List (Answer Value)) :
    runs (answer :: answers) = answer.run.toList ++ runs answers := by
  rw [runs, List.filterMap_cons, runs]
  cases answer.run with
  | none => rfl
  | some result => rfl

theorem accounted_of_run {acquired : Bool} {results : List (Except Exc Value)}
    {phase next : Phase Value} {answers : List (Answer Value)}
    (run : exec (Phase.next cache) phase answers = some next)
    (faults : ∀ answer ∈ answers, answer.RedisFault)
    (accounted : Accounted cache acquired results phase) :
    Accounted cache (acquired || answers.any Answer.acquires) (results ++ runs answers) next := by
  induction answers generalizing acquired results phase with
  | nil =>
      obtain rfl := Option.some.inj run
      simpa [runs] using accounted
  | cons answer answers ih =>
      obtain ⟨middle, taken, rest⟩ := exec_cons_eq_some.mp run
      obtain ⟨here, later⟩ := List.forall_mem_cons.mp faults
      have moved : Accounted cache (acquired || answer.acquires) (results ++ answer.run.toList)
          middle := by
        rcases accounted with expected | mistaken
        · exact accounted_step here expected taken
        · exact .inr (mistaken_step mistaken taken)
      rw [List.any_cons, ← Bool.or_assoc, runs_cons, ← List.append_assoc]
      exact ih rest later moved

/-! ## One run for each call -/

variable {key : String} {ttlSeconds : Option ℚ}

theorem invocations_task (answers : List (Answer Value)) (phase : Phase Value) :
    invocations answers (cache.task key ttlSeconds phase) =
      (runs answers).length + phase.computes := by
  cases phase <;> rfl

theorem result_task (phase : Phase Value) :
    (cache.task key ttlSeconds phase).result = match phase with
      | .ended result => some result
      | _ => none := by
  cases phase <;> rfl

/-- A call that has done what its phase says has run its factory at most once. -/
theorem runsOnce_of_expected {answers : List (Answer Value)} {phase : Phase Value}
    {acquired : Bool} (expected : Expected cache acquired (runs answers) phase) :
    RunsOnce answers (cache.task key ttlSeconds phase) := by
  constructor
  · rw [invocations_task]
    cases phase with
    | lookingUp => simp [expected.2, Phase.computes]
    | acquiring => simp [expected.2, Phase.computes]
    | rechecking => simp [expected.2, Phase.computes]
    | computing held => simp [expected.2, Phase.computes]
    | storing held value raw => simp [expected.2.1, Phase.computes]
    | releasing result => exact expected.2.1
    | ended result => exact expected.1
  · intro e raised result finished
    rw [result_task] at finished
    cases phase with
    | ended last =>
        obtain rfl := Option.some.inj finished
        exact expected.2.1 e raised
    | _ => cases finished

/-- **When a call runs its factory once.** Whatever the factory raises and in whatever
pattern Redis fails, times out or answers: if no factory run under an acquired lock
raises a `LockAcquireError`, then at every moment at most one run has begun, and what
it raised is what the caller receives; and of a call that is over the converse holds. -/
theorem runs_once_iff (cache : Cache Value) (key : String) (ttlSeconds : Option ℚ)
    (answers : List (Answer Value)) (task : Task Value)
    (run : exec Task.step (cache.getOrSet key ttlSeconds) answers = some task)
    (faults : ∀ answer ∈ answers, answer.RedisFault) :
    (NoLockErrorInside cache (answers.any Answer.acquires) (runs answers) →
        RunsOnce answers task) ∧
      (task.result.isSome → RunsOnce answers task →
        NoLockErrorInside cache (answers.any Answer.acquires) (runs answers)) := by
  have phases : exec Task.step (cache.task key ttlSeconds .lookingUp) answers =
      (exec (Phase.next cache) .lookingUp answers).map (cache.task key ttlSeconds) :=
    exec_task .lookingUp answers
  obtain ⟨phase, moved, rfl⟩ := Option.map_eq_some_iff.mp (phases.symm.trans run)
  have accounted : Accounted cache (answers.any Answer.acquires) (runs answers) phase :=
    accounted_of_run moved faults (.inl ⟨rfl, rfl⟩)
  rcases accounted with expected | ⟨mistaken, begun⟩
  · refine ⟨fun _ => runsOnce_of_expected expected, fun finished _ => ?_⟩
    cases phase with
    | ended result => exact expected.2.2
    | _ => cases finished
  · refine ⟨fun none => absurd none mistaken, fun _ once => ?_⟩
    have counted := once.once
    rw [invocations_task] at counted
    omega

/-- A cache of texts, stored as they are. -/
def texts : Cache String where
  namespace_ := "products"
  ttlSeconds := some 60
  serializer := ⟨.ok, .ok⟩

/-- A factory that raises a `RedisError` under the lock is not run again, though the
release fails as well. -/
theorem redis_error_runs_once :
    ∃ task, exec Task.step (texts.getOrSet "p1" none)
        [.got (.ok none), .acquired (.ok true), .got (.error { number := 2, isRedisError := true }),
          .made (.error { number := 3, isRedisError := true }),
          .released (.error { number := 4, isRedisError := true })] = some task ∧
      RunsOnce [.got (.ok none), .acquired (.ok true),
        .got (.error { number := 2, isRedisError := true }),
        .made (.error { number := 3, isRedisError := true }),
        .released (.error { number := 4, isRedisError := true })] task := by
  refine ⟨_, rfl, (runs_once_iff texts "p1" none _ _ rfl ?_).1 ?_⟩
  · simp [Answer.RedisFault]
  · simp [NoLockErrorInside, runs, Answer.run, RaisesLockError]

/-- **A `LockAcquireError` runs the factory twice.** The factory takes another lock in
vain and raises a `LockAcquireError` while the lock of the cache is held; the call
takes it for its own lock and begins a second run. -/
theorem nested_lock_error_runs_twice :
    ∃ task, exec Task.step (texts.getOrSet "p1" none)
        [.got (.ok none), .acquired (.ok true), .got (.ok none),
          .made (.error lockAcquireError), .released (.ok ()), .made (.ok "mug"),
          .stored (.ok ())] = some task ∧
      task.result = some (.ok "mug") ∧
      ¬ RunsOnce [.got (.ok none), .acquired (.ok true), .got (.ok none),
        .made (.error lockAcquireError), .released (.ok ()), .made (.ok "mug"),
        .stored (.ok ())] task := by
  refine ⟨_, rfl, rfl, fun once => ?_⟩
  have counted := once.once
  exact absurd counted (by decide)

end PyCommon.CacheAside
