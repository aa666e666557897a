import PyCommon.Cache.RateLimit
import PyCommon.Lib.Recency

/-!
# The fixed-window rate limiters

`RedisRateLimiter` counts the hits on a key in a Redis counter whose time to live is set
by the first hit of the window. `InMemoryRateLimiter` counts them in a bounded map that
keeps the start of the window beside the count, and forgets the key that was used longest
ago.

Both take the rate with each hit, and neither stores it: what a hit finds is the count
that any earlier hits on the key have left. The one reads its times from Redis in whole
milliseconds, and the other subtracts floats.
-/

set_option autoImplicit false

namespace PyCommon.Cache

/-- A rate as `parse_rate` returns it. -/
structure Rate where
  times : ℕ
  seconds : ℚ
  times_pos : 1 ≤ times := by decide
  seconds_pos : 0 < seconds := by decide
  deriving DecidableEq

/-! ## A Redis counter -/

/-- A key holding a counter, with its `PEXPIRE` deadline if it has one. -/
structure CounterKey where
  count : ℤ
  expireAt : Option ℤ
  deriving DecidableEq

/-- The key as a command executed at `now` finds it. -/
def liveCounter (now : ℤ) (key : Option CounterKey) : Option CounterKey :=
  key.filter fun held => held.expireAt.all fun deadline => now < deadline

/-- `INCR key`. -/
def incr (key : Option CounterKey) : CounterKey :=
  match key with
  | none => ⟨1, none⟩
  | some held => { held with count := held.count + 1 }

/-- `PTTL key`. -/
def pttl (now : ℤ) (key : CounterKey) : ℤ :=
  match liveCounter now (some key) with
  | none => -2
  | some held => held.expireAt.elim (-1) fun deadline => deadline - now

/-- `_INCR_WITH_TTL`, run at `now`: the count, the time to live, and the key. -/
def incrWithTtl (now window : ℤ) (key : Option CounterKey) : ℤ × ℤ × CounterKey :=
  let counted := incr (liveCounter now key)
  let counted := if counted.count = 1 then { counted with expireAt := some (now + window) }
    else counted
  (counted.count, pttl now counted, counted)

/-- A key that is gone stays gone. -/
theorem liveCounter_eq_none_of_le {now later : ℤ} {key : Option CounterKey} (le : now ≤ later)
    (gone : liveCounter now key = none) : liveCounter later key = none := by
  cases key with
  | none => rfl
  | some held =>
      simp only [liveCounter, Option.filter_eq_none_iff, Option.some.injEq, forall_eq',
        Option.all_eq_true_iff_get, decide_eq_true_eq, not_forall, not_lt] at gone ⊢
      obtain ⟨bounded, past⟩ := gone
      exact ⟨bounded, past.trans le⟩

/-! ## RedisRateLimiter -/

structure RedisRateLimiter where
  keyPrefix : String := "rate_limit"
  failOpen : Bool := true

/-- The key the script is given. -/
def RedisRateLimiter.redisKey (limiter : RedisRateLimiter) (key : String) : String :=
  limiter.keyPrefix ++ ":" ++ key

/-- The result built from the script's reply. -/
def counterResult (times : ℕ) (seconds : ℚ) (count ttlMs : ℤ) : RateLimitResult :=
  { allowed := count ≤ times
    remaining := max (times - count) 0
    resetAfterSeconds := if 0 < ttlMs then ttlMs / 1000 else seconds
    limit := times }

/-- `hit`, given what running the script gave. -/
def RedisRateLimiter.hit (limiter : RedisRateLimiter) (times : ℕ) (seconds : ℚ)
    (reply : Except PyExc (ℤ × ℤ)) : Except PyExc RateLimitResult :=
  match reply with
  | .ok (count, ttlMs) => .ok (counterResult times seconds count ttlMs)
  | .error .redisError =>
      if limiter.failOpen then .ok (failOpenResult times seconds) else .error .redisError
  | .error e => .error e

/-- A hit that reaches Redis, on a key. -/
def counterStep (times : ℕ) (seconds : ℚ) (now : ℤ) (key : Option CounterKey) :
    RateLimitResult × CounterKey :=
  let (count, ttlMs, key) := incrWithTtl now (windowMs seconds) key
  (counterResult times seconds count ttlMs, key)

/-- A hit sees nothing of a key that is gone. -/
theorem counterStep_of_gone {times : ℕ} {seconds : ℚ} {now : ℤ} {key : Option CounterKey}
    (gone : liveCounter now key = none) :
    counterStep times seconds now key = counterStep times seconds now none := by
  simp only [counterStep, incrWithTtl, gone]
  rfl

/-! ## InMemoryRateLimiter -/

/-- `_windows`: the start of the window and the count of each key, in the order of use. -/
abbrev Windows := List (String × ℚ × ℕ)

/-- Negative bounds, under which every hit raises, are left out. -/
structure InMemoryRateLimiter where
  maxKeys : ℕ := 10000

/-- The difference of two floats. -/
def floatSub (x y : ℚ) : ℚ := BinaryFloats.binary64.sub x y

/-- The window that a hit goes on with, or a new one. -/
def window (seconds now : ℚ) (held : Option (ℚ × ℕ)) : ℚ × ℕ :=
  let found := held.getD (now, 0)
  if seconds ≤ floatSub now found.1 then (now, 0) else found

/-- `hit`, when the clock reads `now`. -/
def InMemoryRateLimiter.hit (limiter : InMemoryRateLimiter) (key : String) (times : ℕ)
    (seconds now : ℚ) (windows : Windows) : RateLimitResult × Windows :=
  let (windowStart, count) := window seconds now (Recency.get key windows)
  let count := count + 1
  let windows := Recency.put limiter.maxKeys key (windowStart, count) windows
  ({ allowed := count ≤ times
     remaining := max ((times : ℤ) - count) 0
     resetAfterSeconds := max (floatSub seconds (floatSub now windowStart)) 0
     limit := times }, windows)

/-! ### Differences of floats -/

theorem lt_of_floatSub_pos {x y : ℚ} (positive : 0 < floatSub x y) : y < x := by
  by_contra later
  have none_left : floatSub x y ≤ 0 :=
    BinaryFloats.Format.round_nonpos (sub_nonpos.mpr (not_lt.mp later))
  exact absurd positive (not_lt.mpr none_left)

/-- From an earlier start it is no less. -/
theorem floatSub_anti {x y y' : ℚ} (ordered : y ≤ x) (earlier : y' ≤ y) :
    floatSub x y ≤ floatSub x y' :=
  BinaryFloats.Format.round_mono (by decide) (sub_nonneg.mpr ordered) (sub_le_sub_left earlier x)

end PyCommon.Cache
