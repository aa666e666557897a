import PyCommon.Asgi
import PyCommon.Cache.RateLimit
import PyCommon.Lib.Runs

/-!
# Cache-aside with stampede protection

`Cache.get_or_set` as the tree of its awaits (`Task`): a `GET`, the acquisition and
the release of the lock, the factory, a `SET`. Each helper of the source is a
definition in continuation form, which receives what follows it, so that the three
places an exception can be caught read as they do there: around the `GET` in
`_lookup`, around the serializer and the `SET` in `set`, around the lock in
`get_or_set`.

A task only ever stands at one of seven kinds of await (`Phase`). The tree takes the
same steps as the machine of its phases (`task_step`), and what is proved of runs is
proved over the phases: what an answer can do to a phase is listed once
(`moves_of_next`).
-/

set_option autoImplicit false

namespace PyCommon.CacheAside

open StepSystem

/-! ## Exceptions, values and the serializer -/

/-- An exception, by what the `except` clauses ask of it. The number tells exceptions
apart. -/
structure Exc where
  number : ℕ
  isLockAcquireError : Bool := false
  isRedisError : Bool := false
  isTypeOrValueError : Bool := false
  isException : Bool := true
  derives : isLockAcquireError ∨ isRedisError ∨ isTypeOrValueError → isException := by decide
  deriving DecidableEq

/-- What the client returns for a stored value, depending on `decode_responses`. -/
inductive Raw where
  | text (text : String)
  | bytes (bytes : Bytes)
  deriving DecidableEq

/-- A client, by whether it decodes what it reads, as `create_redis` makes it. -/
structure Client where
  decodeResponses : Bool := true
  deriving DecidableEq

/-- A `UnicodeDecodeError` is a `ValueError`. -/
def unicodeDecodeError : Exc := { number := 4, isTypeOrValueError := true }

/-- What the client makes of the bytes of an entry. -/
def Client.read (client : Client) (entry : Bytes) : Except Exc Raw :=
  if client.decodeResponses then
    match PyCommon.decode entry with
    | .ok text => .ok (.text text)
    | .error _ => .error unicodeDecodeError
  else .ok (.bytes entry)

/-- The `Serializer` protocol. -/
structure Serializer (Value : Type) where
  dumps : Value → Except Exc String
  loads : String → Except Exc Value

structure Cache (Value : Type) where
  namespace_ : String
  ttlSeconds : Option ℚ
  serializer : Serializer Value
  stampedeProtection : Bool := true
  lockTimeoutSeconds : ℚ := 10

/-- The awaits of a call. -/
inductive Task (Value : Type) where
  | done (result : Except Exc Value)
  | get (key : String) (k : Except Exc (Option Raw) → Task Value)
  | set (key raw : String) (px : Option ℤ) (k : Except Exc Unit → Task Value)
  | factory (k : Except Exc Value → Task Value)
  | acquire (name : String) (timeout blockingTimeout : ℚ) (k : Except Exc Bool → Task Value)
  | release (name : String) (k : Except Exc Unit → Task Value)

variable {Value : Type} (cache : Cache Value)

/-! ## The methods -/

/-- `build_key`. -/
def Cache.buildKey (key : String) : String := "cache:\x7b" ++ cache.namespace_ ++ "\x7d:" ++ key

/-- `try: … except RedisError: logger.warning(…)` around one command. -/
def swallowRedisError {α : Type} (default : α) : Except Exc α → Except Exc α
  | .error e => if e.isRedisError then .ok default else .error e
  | .ok reply => .ok reply

/-- `_decode`, with `none` for `_DECODE_FAILED`. -/
def Cache.decode (raw : Raw) : Except Exc (Option Value) :=
  match raw with
  | .text text => loaded text
  | .bytes bytes =>
      match PyCommon.decode bytes with
      | .ok text => loaded text
      | .error _ => .ok none
where
  loaded (text : String) : Except Exc (Option Value) :=
    match cache.serializer.loads text with
    | .ok value => .ok (some value)
    | .error e => if e.isException then .ok none else .error e

/-- What `_lookup` makes of the reply to its `GET`: a hit, a miss, or an exception. -/
def Cache.looked (reply : Except Exc (Option Raw)) : Except Exc (Option Value) :=
  match swallowRedisError none reply with
  | .error e => .error e
  | .ok none => .ok none
  | .ok (some raw) => cache.decode raw

/-- `_lookup`. -/
def Cache.lookup (key : String) (k : Except Exc (Option Value) → Task Value) : Task Value :=
  .get (cache.buildKey key) fun reply => k (cache.looked reply)

/-- The `px` of the `SET`. A `ttl_seconds` of -1 stands for the cache's own. -/
def Cache.px (ttlSeconds : Option ℚ) : Option ℤ :=
  (if ttlSeconds = some (-1) then cache.ttlSeconds else ttlSeconds).map fun ttl =>
    PyCommon.Cache.truncate (ttl * 1000)

/-- `except TypeError, ValueError` around the serializer. -/
def serializeFailed (e : Exc) : Except Exc Unit :=
  if e.isTypeOrValueError then .ok () else .error e

/-- `set`. -/
def Cache.set (key : String) (value : Value) (ttlSeconds : Option ℚ)
    (k : Except Exc Unit → Task Value) : Task Value :=
  match cache.serializer.dumps value with
  | .error e => k (serializeFailed e)
  | .ok raw =>
      .set (cache.buildKey key) raw (cache.px ttlSeconds) fun reply =>
        k (swallowRedisError () reply)

/-- `_compute_and_store`. -/
def Cache.computeAndStore (key : String) (ttlSeconds : Option ℚ)
    (k : Except Exc Value → Task Value) : Task Value :=
  .factory fun result =>
    match result with
    | .error e => k (.error e)
    | .ok value => cache.set key value ttlSeconds fun stored => k (stored.map fun _ => value)

/-- The exception `redis_lock` raises when the lock was not acquired in time. -/
def lockAcquireError : Exc := { number := 0, isLockAcquireError := true }

/-- How a `redis_lock` block ends that ended with `result`, after the release. -/
def afterRelease {α : Type} (result : Except Exc α) (reply : Except Exc Unit) : Except Exc α :=
  match swallowRedisError () reply with
  | .error e => .error e
  | .ok _ => result

/-- The end of a `redis_lock` block. -/
def releaseLock (name : String) (k : Except Exc Value → Task Value)
    (result : Except Exc Value) : Task Value :=
  .release ("lock:" ++ name) fun reply => k (afterRelease result reply)

/-- `redis_lock` around a block, without `auto_extend`. What follows is also told
whether the block was entered, which is when the caller sets `held`. -/
def redisLock (name : String) (ttlSeconds blockingTimeout : ℚ)
    (block : (Except Exc Value → Task Value) → Task Value)
    (k : Bool → Except Exc Value → Task Value) : Task Value :=
  .acquire ("lock:" ++ name) ttlSeconds blockingTimeout fun reply =>
    match reply with
    | .error e => k false (.error e)
    | .ok false => k false (.error lockAcquireError)
    | .ok true => block (releaseLock name (k true))

/-- The name of the lock `get_or_set` takes. -/
def Cache.lockName (key : String) : String := "cache:" ++ cache.namespace_ ++ ":" ++ key

/-- The `except` clauses around the lock, and what follows them. -/
def Cache.afterLock (key : String) (ttlSeconds : Option ℚ) (held : Bool) :
    Except Exc Value → Task Value
  | .ok value => .done (.ok value)
  | .error e =>
      if e.isLockAcquireError then cache.computeAndStore key ttlSeconds .done
      else if e.isRedisError then
        if held then .done (.error e) else cache.computeAndStore key ttlSeconds .done
      else .done (.error e)

/-- The block under the lock. -/
def Cache.recheck (key : String) (ttlSeconds : Option ℚ)
    (leave : Except Exc Value → Task Value) : Task Value :=
  cache.lookup key fun second =>
    match second with
    | .error e => leave (.error e)
    | .ok (some value) => leave (.ok value)
    | .ok none => cache.computeAndStore key ttlSeconds leave

/-- `get_or_set`. -/
def Cache.getOrSet (key : String) (ttlSeconds : Option ℚ) : Task Value :=
  cache.lookup key fun first =>
    match first with
    | .error e => .done (.error e)
    | .ok (some value) => .done (.ok value)
    | .ok none =>
        if cache.stampedeProtection then
          redisLock (cache.lockName key) cache.lockTimeoutSeconds cache.lockTimeoutSeconds
            (cache.recheck key ttlSeconds) (cache.afterLock key ttlSeconds)
        else cache.computeAndStore key ttlSeconds .done

/-! ## Awaiting -/

/-- What an await gives: the reply to a `GET` or a `SET`, the outcome of the factory,
and those of acquiring and releasing the lock. -/
inductive Answer (Value : Type) where
  | got (reply : Except Exc (Option Raw))
  | stored (reply : Except Exc Unit)
  | made (result : Except Exc Value)
  | acquired (reply : Except Exc Bool)
  | released (reply : Except Exc Unit)

/-- The task goes on with the answer to its await. -/
def Task.step : Task Value → Answer Value → Option (Task Value)
  | .get _ k, .got reply => some (k reply)
  | .set _ _ _ k, .stored reply => some (k reply)
  | .factory k, .made result => some (k result)
  | .acquire _ _ _ k, .acquired reply => some (k reply)
  | .release _ k, .released reply => some (k reply)
  | _, _ => none

/-- The factory is running. -/
def Task.computing : Task Value → Bool
  | .factory _ => true
  | _ => false

/-- What the caller received, if the call is over. -/
def Task.result : Task Value → Option (Except Exc Value)
  | .done result => some result
  | _ => none

/-! ## Phases -/

/-- Where a call of `get_or_set` stands. `held` says that it holds the lock. -/
inductive Phase (Value : Type) where
  | lookingUp
  | acquiring
  | rechecking
  | computing (held : Bool)
  | storing (held : Bool) (value : Value) (raw : String)
  | releasing (result : Except Exc Value)
  | ended (result : Except Exc Value)

/-- The computation is over: the lock is released if it is held. -/
def Phase.leave (held : Bool) (result : Except Exc Value) : Phase Value :=
  if held then .releasing result else .ended result

/-- The `except` clauses around the lock. -/
def Phase.caught (held : Bool) : Except Exc Value → Phase Value
  | .ok value => .ended (.ok value)
  | .error e =>
      if e.isLockAcquireError then .computing false
      else if e.isRedisError then if held then .ended (.error e) else .computing false
      else .ended (.error e)

/-- The phase after an answer. -/
def Phase.next : Phase Value → Answer Value → Option (Phase Value)
  | .lookingUp, .got reply =>
      match cache.looked reply with
      | .error e => some (.ended (.error e))
      | .ok (some value) => some (.ended (.ok value))
      | .ok none => some (if cache.stampedeProtection then .acquiring else .computing false)
  | .acquiring, .acquired reply =>
      match reply with
      | .error e => some (.caught false (.error e))
      | .ok false => some (.caught false (.error lockAcquireError))
      | .ok true => some .rechecking
  | .rechecking, .got reply =>
      match cache.looked reply with
      | .error e => some (.releasing (.error e))
      | .ok (some value) => some (.releasing (.ok value))
      | .ok none => some (.computing true)
  | .computing held, .made result =>
      match result with
      | .error e => some (.leave held (.error e))
      | .ok value =>
          match cache.serializer.dumps value with
          | .error e => some (.leave held ((serializeFailed e).map fun _ => value))
          | .ok raw => some (.storing held value raw)
  | .storing held value _, .stored reply =>
      some (.leave held ((swallowRedisError () reply).map fun _ => value))
  | .releasing result, .released reply => some (.caught true (afterRelease result reply))
  | _, _ => none

/-- What follows the computation. -/
def Cache.leave (key : String) (ttlSeconds : Option ℚ) (held : Bool) :
    Except Exc Value → Task Value :=
  if held then releaseLock (cache.lockName key) (cache.afterLock key ttlSeconds true) else .done

/-- The task that stands at a phase. -/
def Cache.task (key : String) (ttlSeconds : Option ℚ) : Phase Value → Task Value
  | .lookingUp => cache.getOrSet key ttlSeconds
  | .acquiring =>
      redisLock (cache.lockName key) cache.lockTimeoutSeconds cache.lockTimeoutSeconds
        (cache.recheck key ttlSeconds) (cache.afterLock key ttlSeconds)
  | .rechecking => cache.recheck key ttlSeconds (cache.leave key ttlSeconds true)
  | .computing held => cache.computeAndStore key ttlSeconds (cache.leave key ttlSeconds held)
  | .storing held value raw =>
      .set (cache.buildKey key) raw (cache.px ttlSeconds) fun reply =>
        cache.leave key ttlSeconds held ((swallowRedisError () reply).map fun _ => value)
  | .releasing result =>
      releaseLock (cache.lockName key) (cache.afterLock key ttlSeconds true) result
  | .ended result => .done result

variable {cache} {key : String} {ttlSeconds : Option ℚ}

theorem task_leave (held : Bool) (result : Except Exc Value) :
    cache.task key ttlSeconds (.leave held result) = cache.leave key ttlSeconds held result := by
  cases held with
  | true => rfl
  | false => rfl

theorem task_caught (held : Bool) (result : Except Exc Value) :
    cache.task key ttlSeconds (.caught held result) =
      cache.afterLock key ttlSeconds held result := by
  cases result with
  | ok value => rfl
  | error e =>
      simp only [Phase.caught, Cache.afterLock]
      by_cases lockError : e.isLockAcquireError
      · rw [if_pos lockError, if_pos lockError]
        rfl
      · rw [if_neg lockError, if_neg lockError]
        by_cases redisError : e.isRedisError
        · rw [if_pos redisError, if_pos redisError]
          cases held with
          | true => rfl
          | false => rfl
        · rw [if_neg redisError, if_neg redisError]
          rfl

/-- **The tree takes the steps of its phases.** -/
theorem task_step (phase : Phase Value) (answer : Answer Value) :
    (cache.task key ttlSeconds phase).step answer =
      (phase.next cache answer).map (cache.task key ttlSeconds) := by
  cases phase with
  | lookingUp =>
      cases answer with
      | got reply =>
          simp only [Cache.task, Cache.getOrSet, Cache.lookup, Task.step, Phase.next]
          cases cache.looked reply with
          | error e => rfl
          | ok hit =>
              cases hit with
              | some value => rfl
              | none =>
                  cases cache.stampedeProtection with
                  | true => rfl
                  | false => rfl
      | _ => rfl
  | acquiring =>
      cases answer with
      | acquired reply =>
          rcases reply with e | acquired
          · exact congrArg some (task_caught false (.error e)).symm
          · cases acquired with
            | false => exact congrArg some (task_caught false (.error lockAcquireError)).symm
            | true => rfl
      | _ => rfl
  | rechecking =>
      cases answer with
      | got reply =>
          simp only [Cache.task, Cache.recheck, Cache.lookup, Task.step, Phase.next]
          cases cache.looked reply with
          | error e => rfl
          | ok hit =>
              cases hit with
              | some value => rfl
              | none => rfl
      | _ => rfl
  | computing held =>
      cases answer with
      | made result =>
          cases result with
          | error e => exact congrArg some (task_leave held (.error e)).symm
          | ok value =>
              simp only [Cache.task, Cache.computeAndStore, Cache.set, Task.step, Phase.next]
              cases cache.serializer.dumps value with
              | error e => exact congrArg some (task_leave held _).symm
              | ok raw => rfl
      | _ => rfl
  | storing held value raw =>
      cases answer with
      | stored reply => exact congrArg some (task_leave held _).symm
      | _ => rfl
  | releasing result =>
      cases answer with
      | released reply => exact congrArg some (task_caught true _).symm
      | _ => rfl
  | ended result =>
      cases answer with
      | _ => rfl

/-- The answers a task goes on with take it through the same phases. -/
theorem exec_task (phase : Phase Value) (answers : List (Answer Value)) :
    exec Task.step (cache.task key ttlSeconds phase) answers =
      (exec (Phase.next cache) phase answers).map (cache.task key ttlSeconds) := by
  induction answers generalizing phase with
  | nil => rfl
  | cons answer answers ih =>
      rw [exec_cons, exec_cons, task_step]
      cases phase.next cache answer with
      | none => rfl
      | some next => exact ih next

variable (cache) in
/-- What an answer does to a phase, one way after the other. -/
inductive Phase.Moves : Phase Value → Answer Value → Phase Value → Prop where
  | lookupRaised {reply : Except Exc (Option Raw)} {e : Exc}
      (looked : cache.looked reply = .error e) :
      Moves .lookingUp (.got reply) (.ended (.error e))
  | hit {reply : Except Exc (Option Raw)} {value : Value}
      (looked : cache.looked reply = .ok (some value)) :
      Moves .lookingUp (.got reply) (.ended (.ok value))
  | miss {reply : Except Exc (Option Raw)} (looked : cache.looked reply = .ok none) :
      Moves .lookingUp (.got reply)
        (if cache.stampedeProtection then .acquiring else .computing false)
  | lockRaised {e : Exc} : Moves .acquiring (.acquired (.error e)) (.caught false (.error e))
  | lockTimedOut :
      Moves .acquiring (.acquired (.ok false)) (.caught false (.error lockAcquireError))
  | locked : Moves .acquiring (.acquired (.ok true)) .rechecking
  | recheckRaised {reply : Except Exc (Option Raw)} {e : Exc}
      (looked : cache.looked reply = .error e) :
      Moves .rechecking (.got reply) (.releasing (.error e))
  | found {reply : Except Exc (Option Raw)} {value : Value}
      (looked : cache.looked reply = .ok (some value)) :
      Moves .rechecking (.got reply) (.releasing (.ok value))
  | stillMissing {reply : Except Exc (Option Raw)} (looked : cache.looked reply = .ok none) :
      Moves .rechecking (.got reply) (.computing true)
  | factoryRaised {held : Bool} {e : Exc} :
      Moves (.computing held) (.made (.error e)) (.leave held (.error e))
  | unserializable {held : Bool} {value : Value} {e : Exc}
      (dumped : cache.serializer.dumps value = .error e) :
      Moves (.computing held) (.made (.ok value))
        (.leave held ((serializeFailed e).map fun _ => value))
  | serialized {held : Bool} {value : Value} {raw : String}
      (dumped : cache.serializer.dumps value = .ok raw) :
      Moves (.computing held) (.made (.ok value)) (.storing held value raw)
  | stored {held : Bool} {value : Value} {raw : String} {reply : Except Exc Unit} :
      Moves (.storing held value raw) (.stored reply)
        (.leave held ((swallowRedisError () reply).map fun _ => value))
  | released {result : Except Exc Value} {reply : Except Exc Unit} :
      Moves (.releasing result) (.released reply) (.caught true (afterRelease result reply))

/-- **Every answer that a phase takes does one of these.** -/
theorem moves_of_next {phase next : Phase Value} {answer : Answer Value}
    (taken : phase.next cache answer = some next) : phase.Moves cache answer next := by
  cases phase with
  | lookingUp =>
      cases answer with
      | got reply =>
          simp only [Phase.next] at taken
          split at taken
          · rename_i e looked
            cases taken
            exact .lookupRaised looked
          · rename_i value looked
            cases taken
            exact .hit looked
          · rename_i looked
            cases taken
            exact .miss looked
      | _ => cases taken
  | acquiring =>
      cases answer with
      | acquired reply =>
          rcases reply with e | acquired
          · cases taken
            exact .lockRaised
          · cases acquired with
            | false =>
                cases taken
                exact .lockTimedOut
            | true =>
                cases taken
                exact .locked
      | _ => cases taken
  | rechecking =>
      cases answer with
      | got reply =>
          simp only [Phase.next] at taken
          split at taken
          · rename_i e looked
            cases taken
            exact .recheckRaised looked
          · rename_i value looked
            cases taken
            exact .found looked
          · rename_i looked
            cases taken
            exact .stillMissing looked
      | _ => cases taken
  | computing held =>
      cases answer with
      | made result =>
          cases result with
          | error e =>
              cases taken
              exact .factoryRaised
          | ok value =>
              simp only [Phase.next] at taken
              split at taken
              · rename_i e dumped
                cases taken
                exact .unserializable dumped
              · rename_i raw dumped
                cases taken
                exact .serialized dumped
      | _ => cases taken
  | storing held value raw =>
      cases answer with
      | stored reply =>
          cases taken
          exact .stored
      | _ => cases taken
  | releasing result =>
      cases answer with
      | released reply =>
          cases taken
          exact .released
      | _ => cases taken
  | ended result => cases answer <;> cases taken

/-- A lookup raises what the `GET` raised, unless that was a `RedisError`, or what the
serializer raised that is no `Exception`. -/
theorem looked_eq_error {reply : Except Exc (Option Raw)} {e : Exc}
    (looked : cache.looked reply = .error e) :
    reply = .error e ∧ ¬ e.isRedisError ∨ ¬ e.isException := by
  have loadedError : ∀ text, Cache.decode.loaded cache text = .error e → ¬ e.isException := by
    intro text loaded
    unfold Cache.decode.loaded at loaded
    split at loaded
    · cases loaded
    · split at loaded
      · cases loaded
      · rename_i notCaught
        obtain rfl := Except.error.inj loaded
        exact notCaught
  cases reply with
  | error raised =>
      by_cases redisError : raised.isRedisError
      · simp [Cache.looked, swallowRedisError, redisError] at looked
      · obtain rfl : raised = e := by
          simpa [Cache.looked, swallowRedisError, redisError] using looked
        exact .inl ⟨rfl, redisError⟩
  | ok stored =>
      cases stored with
      | none => cases looked
      | some raw =>
          cases raw with
          | text text => exact .inr (loadedError text looked)
          | bytes bytes =>
              simp only [Cache.looked, swallowRedisError, Cache.decode] at looked
              split at looked
              · exact .inr (loadedError _ looked)
              · cases looked

end PyCommon.CacheAside
