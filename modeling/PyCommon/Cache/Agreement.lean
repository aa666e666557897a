import PyCommon.Cache.FixedWindowBound
import PyCommon.Cache.StackedRates

/-!
# When the in-memory limiter agrees with Redis

`RedisRateLimiter` and `InMemoryRateLimiter` are built differently: a counter that expires
on one side, and on the other a timestamped window in a map that forgets the key used longest
ago. Under one rate for each key the hits on a key fall into windows that their times in whole
milliseconds determine (`windowStep`), and the counter holds these windows. The map holds them
too, with the times as floats, while fewer distinct other keys are hit than it has room for
(`Kept`).

But the map tells that a window is over from a difference of two floats, which may be rounded to
less or more than the milliseconds that have passed. So with a window of one second a hit at
1001 ms does not begin a window after a hit at 1 ms (`boundary_hit_disagrees`). The two limiters
return the same for the hits on a key exactly as long as the differences round as the times in
milliseconds do, as they do for times and rates of whole eighths of a second, which floats have
exactly (`fixed_window_limiters_agree`).
-/

set_option autoImplicit false

namespace PyCommon.Cache

open FixedWindows Recency StepSystem

/-! ## One clock -/

/-- `time.monotonic()`, and the quotient `ttl_ms / 1000`: the float of a time in milliseconds. -/
def floatSeconds (ms : ℤ) : ℚ := BinaryFloats.binary64.round (ms / 1000)

/-- The in-memory clock is read in seconds. -/
def RatedHit.inSeconds (h : RatedHit ℤ) : RatedHit ℚ := ⟨h.key, h.rate, floatSeconds h.moment⟩

/-- A result whose reset is a float. -/
def RateLimitResult.inFloats (result : RateLimitResult) : RateLimitResult :=
  { result with resetAfterSeconds := BinaryFloats.binary64.round result.resetAfterSeconds }

/-- What the hits on a key were told. -/
def RunState.told {b : Backend} (s : RunState b) (key : String) : List RateLimitResult :=
  (s.log.filter fun entry => entry.1.key = key).map Prod.snd

/-! ## The windows of the keys -/

/-- The running window of each key, in milliseconds. -/
abbrev KeyWindows := String → Option (Window ℤ)

/-- A hit falls into a window of its key, under the rate of the key. -/
def windowStep (rate : String → Rate) (held : KeyWindows) (h : RatedHit ℤ) : Option KeyWindows :=
  some (Function.update held h.key
    (some (take (windowMs (rate h.key).seconds) h.moment (held h.key))))

/-- The differences of floats round as the milliseconds go: the rounded difference of the two
clock readings is at least the seconds of the rate exactly if the window is over, and in the
window that takes the hit what it leaves of these seconds rounds to what is left in
milliseconds. -/
def Rounds (rate : Rate) (now : ℤ) (running : Option (Window ℤ)) : Prop :=
  (∀ w ∈ running, rate.seconds ≤ floatSub (floatSeconds now) (floatSeconds w.start) ↔
    w.start + windowMs rate.seconds ≤ now) ∧
  floatSub rate.seconds (floatSub (floatSeconds now)
      (floatSeconds (take (windowMs rate.seconds) now running).start)) =
    floatSeconds ((take (windowMs rate.seconds) now running).start + windowMs rate.seconds - now)

instance (rate : Rate) (now : ℤ) (running : Option (Window ℤ)) :
    Decidable (Rounds rate now running) :=
  inferInstanceAs (Decidable ((∀ w ∈ running, _ ↔ _) ∧ _))

/-- A hit on the key finds a window from which its differences round. -/
def RoundsOn (rate : String → Rate) (key : String) (held : KeyWindows) (h : RatedHit ℤ) : Prop :=
  h.key = key → Rounds (rate key) h.moment (held key)

instance (rate : String → Rate) (key : String) (held : KeyWindows) (h : RatedHit ℤ) :
    Decidable (RoundsOn rate key held h) :=
  inferInstanceAs (Decidable (h.key = key → Rounds (rate key) h.moment (held key)))

/-- Between two consecutive hits on the key there are hits on fewer than `bound` distinct
other keys. -/
def Frequent {Moment : Type} (bound : ℕ) (key : String) (hits : List (RatedHit Moment)) : Prop :=
  ∀ before first between second after,
    hits = before ++ first :: (between ++ second :: after) →
      first.key = key → second.key = key → (∀ h ∈ between, h.key ≠ key) →
        (between.map RatedHit.key).dedup.length < bound

/-- No more keys than the bound are hit at all. -/
theorem frequent_of_few {Moment : Type} {bound : ℕ} {key : String} {hits : List (RatedHit Moment)}
    (few : (hits.map RatedHit.key).dedup.length ≤ bound) : Frequent bound key hits := by
  intro before first between second after split own _ others
  have apart : key ∉ (between.map RatedHit.key).dedup := by
    intro inside
    obtain ⟨h, member, same⟩ := List.mem_map.mp (List.mem_dedup.mp inside)
    exact others h member same
  have subset : key :: (between.map RatedHit.key).dedup ⊆ (hits.map RatedHit.key).dedup := by
    intro k inside
    rw [List.mem_dedup, split, List.map_append, List.map_cons, List.map_append]
    rcases List.mem_cons.mp inside with rfl | among
    · rw [own]
      exact List.mem_append_right _ List.mem_cons_self
    · exact List.mem_append_right _
        (List.mem_cons_of_mem _ (List.mem_append_left _ (List.mem_dedup.mp among)))
  have longer := ((List.nodup_cons.mpr ⟨apart, List.nodup_dedup _⟩).subperm subset).length_le
  rw [List.length_cons] at longer
  omega

theorem Frequent.init {Moment : Type} {bound : ℕ} {key : String} {past : List (RatedHit Moment)}
    {h : RatedHit Moment} (frequent : Frequent bound key (past ++ [h])) :
    Frequent bound key past := by
  intro before first between second after split own own' others
  refine frequent before first between second (after ++ [h]) ?_ own own' others
  rw [split, List.append_assoc, List.cons_append, List.append_assoc, List.cons_append]

/-! ## A hit that finds the same window -/

section Hit

variable {rate : Rate} {now : ℤ} {running : Option (Window ℤ)}

/-- A window as the in-memory limiter keeps it. -/
def windowEntry (w : Window ℤ) : ℚ × ℕ := (floatSeconds w.start, w.count)

/-- The in-memory limiter takes a hit into the same window, if it sees rightly whether the
window is over. -/
theorem window_eq (ends : ∀ w ∈ running,
      rate.seconds ≤ floatSub (floatSeconds now) (floatSeconds w.start) ↔
        w.start + windowMs rate.seconds ≤ now) :
    let found := window rate.seconds (floatSeconds now) (running.map windowEntry)
    (found.1, found.2 + 1) = windowEntry (take (windowMs rate.seconds) now running) := by
  intro found
  cases running with
  | none => simp [found, window, take, windowEntry]
  | some r =>
      by_cases within : now < r.start + windowMs rate.seconds
      · have fresh := mt (ends r rfl).mp (not_le.mpr within)
        simp only [found, window, Option.map_some, Option.getD_some, windowEntry, fresh, if_false,
          take_of_lt within]
      · have expired := (ends r rfl).mpr (not_lt.mp within)
        simp only [found, window, Option.map_some, Option.getD_some, windowEntry, expired,
          if_true, take_of_le (not_lt.mp within), zero_add]

/-- The result of a hit that is the `count`-th of its window. -/
def tally (times count : ℕ) (reset : ℚ) : RateLimitResult :=
  { allowed := count ≤ times
    remaining := max ((times : ℤ) - count) 0
    resetAfterSeconds := reset
    limit := times }

/-- A first hit is told from a later one. -/
theorem tally_first {times count : ℕ} {reset reset' : ℚ} (some_ : 1 ≤ times)
    (same : tally times 1 reset = tally times count reset') : count ≤ 1 := by
  simp only [tally, RateLimitResult.mk.injEq, decide_eq_decide] at same
  obtain ⟨allowed, remaining, -⟩ := same
  have fits := allowed.mp some_
  omega

theorem counterStep_inFloats (positive : 0 < windowMs rate.seconds)
    (counted : ∀ w ∈ running, 0 < w.count) :
    (counterStep rate.times rate.seconds now (keyOf (windowMs rate.seconds) running)).1.inFloats =
      tally rate.times (take (windowMs rate.seconds) now running).count
        (floatSeconds ((take (windowMs rate.seconds) now running).start + windowMs rate.seconds -
          now)) := by
  have left := lt_take positive now running
  have running' : 0 < (take (windowMs rate.seconds) now running).start +
      windowMs rate.seconds - now := by omega
  simp only [counterStep, incrWithTtl_keyOf positive counted, counterResult, if_pos running',
    RateLimitResult.inFloats, tally, floatSeconds, Nat.cast_le]

/-- A window that runs leaves some time. -/
theorem floatSeconds_pos {ms : ℤ} (positive : 0 < ms) : 0 < floatSeconds ms := by
  have first : (0 : ℚ) < BinaryFloats.binary64.round (1 / 1000) := by decide +kernel
  have least : (1 : ℚ) / 1000 ≤ ms / 1000 := by
    have one : (1 : ℚ) ≤ ms := by exact_mod_cast positive
    linarith
  exact first.trans_le (BinaryFloats.Format.round_mono (by decide) (by norm_num) least)

/-- **Two hits have one result exactly if the differences round.** -/
theorem result_agree_iff (positive : 0 < windowMs rate.seconds)
    (counted : ∀ w ∈ running, 0 < w.count) {memory : InMemoryRateLimiter} {key : String}
    {windows : Windows} (same : get key windows = running.map windowEntry) :
    (counterStep rate.times rate.seconds now (keyOf (windowMs rate.seconds) running)).1.inFloats =
        (memory.hit key rate.times rate.seconds (floatSeconds now) windows).1 ↔
      Rounds rate now running := by
  have left := lt_take positive now running
  have result : (memory.hit key rate.times rate.seconds (floatSeconds now) windows).1 =
      tally rate.times
        ((window rate.seconds (floatSeconds now) (running.map windowEntry)).2 + 1)
        (max (floatSub rate.seconds (floatSub (floatSeconds now)
          (window rate.seconds (floatSeconds now) (running.map windowEntry)).1)) 0) := by
    simp only [InMemoryRateLimiter.hit, same, tally, Nat.cast_add, Nat.cast_one]
  rw [counterStep_inFloats positive counted, result]
  by_cases ends : ∀ w ∈ running,
      rate.seconds ≤ floatSub (floatSeconds now) (floatSeconds w.start) ↔
        w.start + windowMs rate.seconds ≤ now
  · have taken := window_eq ends
    simp only [windowEntry, Prod.mk.injEq] at taken
    have more : 0 < floatSeconds ((take (windowMs rate.seconds) now running).start +
        windowMs rate.seconds - now) := floatSeconds_pos (by omega)
    rw [Rounds, and_iff_right ends, taken.1, taken.2]
    simp only [tally, RateLimitResult.mk.injEq, true_and, and_true]
    constructor
    · intro reset
      rw [reset] at more ⊢
      exact (max_eq_left_of_lt (by simpa using more)).symm
    · intro reset
      rw [reset, max_eq_left more.le]
  · -- one of the limiters begins a window, and the other counts on
    refine iff_of_false (fun agree => ends fun w there => ?_) fun rounds => ends rounds.1
    obtain rfl := there
    have some_ := counted w rfl
    by_cases within : now < w.start + windowMs rate.seconds
    · refine iff_of_false (fun expired => ?_) (not_le.mpr within)
      rw [take_of_lt within] at agree
      simp only [window, Option.map_some, Option.getD_some, windowEntry, expired, if_true] at agree
      have first := tally_first rate.times_pos agree.symm
      omega
    · refine iff_of_true ?_ (not_lt.mp within)
      by_contra fresh
      rw [take_of_le (not_lt.mp within)] at agree
      simp only [window, Option.map_some, Option.getD_some, windowEntry, fresh, if_false] at agree
      have first := tally_first rate.times_pos agree
      omega

end Hit

/-! ## Eighths of a second -/

/-- So many eighths of a second as floats have for sure. -/
def Moderate (k : ℤ) : Prop := |k| < 2 ^ 45

theorem floatSeconds_eighths {k : ℤ} (small : |k| < 2 ^ 53) :
    floatSeconds (125 * k) = k * 2 ^ (-3 : ℤ) := by
  have exact_ : ((125 * k : ℤ) : ℚ) / 1000 = k * 2 ^ (-3 : ℤ) := by
    push_cast
    norm_num
    ring
  rw [floatSeconds, exact_]
  exact BinaryFloats.Format.round_eq_self small (by decide)

theorem floatSub_eighths {m n : ℤ} (small : |m - n| < 2 ^ 53) :
    floatSub (m * 2 ^ (-3 : ℤ)) (n * 2 ^ (-3 : ℤ)) = ((m - n : ℤ) : ℚ) * 2 ^ (-3 : ℤ) := by
  have exact_ : (m : ℚ) * 2 ^ (-3 : ℤ) - n * 2 ^ (-3 : ℤ) = ((m - n : ℤ) : ℚ) * 2 ^ (-3 : ℤ) := by
    push_cast
    ring
  rw [floatSub, BinaryFloats.Format.sub, exact_]
  exact BinaryFloats.Format.round_eq_self small (by decide)

theorem windowMs_eighths {k : ℤ} (moderate : Moderate k) :
    windowMs (k * 2 ^ (-3 : ℤ)) = 125 * k := by
  have small : |125 * k| < 2 ^ 53 := by
    rw [abs_mul]
    have bound : |k| < 2 ^ 45 := moderate
    norm_num at bound ⊢
    omega
  have product : (k : ℚ) * 2 ^ (-3 : ℤ) * 1000 = ((125 * k : ℤ) : ℚ) * 2 ^ (0 : ℤ) := by
    push_cast
    norm_num
    ring
  rw [windowMs, product, BinaryFloats.Format.round_eq_self small (by decide), zpow_zero, mul_one,
    truncate]
  split
  · exact Rat.floor_intCast _
  · exact Rat.ceil_intCast _

/-- The rate of the key and the times of the hits on it are whole eighths of a second. -/
def InEighths (rate : String → Rate) (key : String) (hits : List (RatedHit ℤ)) : Prop :=
  (∃ c : ℤ, (rate key).seconds = c * 2 ^ (-3 : ℤ) ∧ Moderate c) ∧
    ∀ h ∈ hits, h.key = key → ∃ n, h.moment = 125 * n ∧ Moderate n

theorem start_take {length now : ℤ} {running : Option (Window ℤ)}
    (started : ∀ w ∈ running, ∃ m, w.start = 125 * m ∧ Moderate m)
    (moderate : ∃ n, now = 125 * n ∧ Moderate n) :
    ∃ m, (take length now running).start = 125 * m ∧ Moderate m := by
  unfold take
  split
  · exact moderate
  · rename_i w
    split
    · exact started w rfl
    · exact moderate

/-- **Eighths of a second round.** -/
theorem rounds_of_eighths {rate : Rate} {c n : ℤ} {running : Option (Window ℤ)}
    (seconds : rate.seconds = c * 2 ^ (-3 : ℤ)) (moderate : Moderate c) (moderate' : Moderate n)
    (started : ∀ w ∈ running, ∃ m, w.start = 125 * m ∧ Moderate m) :
    Rounds rate (125 * n) running := by
  have window : windowMs rate.seconds = 125 * c := by rw [seconds, windowMs_eighths moderate]
  have bound := abs_lt.mp moderate
  have bound' := abs_lt.mp moderate'
  have now : floatSeconds (125 * n) = n * 2 ^ (-3 : ℤ) :=
    floatSeconds_eighths (abs_lt.mpr (by constructor <;> omega))
  have passed : ∀ m, Moderate m → floatSub (floatSeconds (125 * n)) (floatSeconds (125 * m)) =
      ((n - m : ℤ) : ℚ) * 2 ^ (-3 : ℤ) := by
    intro m moderate
    have bound := abs_lt.mp moderate
    rw [now, floatSeconds_eighths (abs_lt.mpr (by constructor <;> omega)),
      floatSub_eighths (abs_lt.mpr (by constructor <;> omega))]
  have positive : (0 : ℚ) < 2 ^ (-3 : ℤ) := by norm_num
  constructor
  · intro w there
    obtain ⟨m, start, moderate⟩ := started w there
    rw [start, passed m moderate, window, seconds, mul_le_mul_iff_left₀ positive, Int.cast_le]
    omega
  · obtain ⟨m, start, moderate⟩ := start_take started ⟨n, rfl, moderate'⟩
    have bound'' := abs_lt.mp moderate
    have left : 125 * m + 125 * c - 125 * n = 125 * (c - (n - m)) := by ring
    rw [start, passed m moderate, window, left, seconds,
      floatSub_eighths (abs_lt.mpr (by constructor <;> omega)),
      floatSeconds_eighths (abs_lt.mpr (by constructor <;> omega))]

/-- **Rates and times of whole eighths of a second.** The differences round at every hit on
the key. -/
theorem everyStep_of_eighths {rate : String → Rate} {key : String} {hits : List (RatedHit ℤ)}
    (eighths : InEighths rate key hits) :
    EveryStep (windowStep rate) (RoundsOn rate key) (fun _ => none) hits := by
  obtain ⟨⟨c, seconds, moderate⟩, times⟩ := eighths
  have every : EveryStep (windowStep rate)
      (fun _ h => h.key = key → ∃ n, h.moment = 125 * n ∧ Moderate n) (fun _ => none) hits :=
    everyStep_of_forall_mem (fun h member _ => times h member) _
  -- the windows of the key have started at whole eighths of a second
  have kept : ∀ held h next, (h.key = key → ∃ n, h.moment = 125 * n ∧ Moderate n) →
      (∀ w ∈ held key, ∃ m, w.start = 125 * m ∧ Moderate m) →
      windowStep rate held h = some next →
      ∀ w ∈ next key, ∃ m, w.start = 125 * m ∧ Moderate m := by
    rintro held h next moment started taken w there
    obtain rfl := Option.some.inj taken
    by_cases own : key = h.key
    · subst own
      rw [Function.update_self] at there
      obtain rfl := Option.some.inj there
      exact start_take started (moment rfl)
    · rw [Function.update_of_ne own] at there
      exact started w there
  have each : ∀ held h, (h.key = key → ∃ n, h.moment = 125 * n ∧ Moderate n) →
      (∀ w ∈ held key, ∃ m, w.start = 125 * m ∧ Moderate m) → RoundsOn rate key held h := by
    intro held h moment started own
    obtain ⟨n, whole, moderate'⟩ := moment own
    rw [whole]
    exact rounds_of_eighths seconds moderate moderate' started
  exact everyStep_of_invariant kept each every fun w none_ => by cases none_

/-! ## What the limiters hold -/

section Holds

variable {redis : RedisRateLimiter} {memory : InMemoryRateLimiter} {rate : String → Rate}
  {key : String} {past : List (RatedHit ℤ)} {held : KeyWindows}

/-- The counters are those of the windows. -/
def Counts (redis : RedisRateLimiter) (rate : String → Rate) (held : KeyWindows)
    (store : String → Option CounterKey) : Prop :=
  ∀ key, store (redis.redisKey key) = keyOf (windowMs (rate key).seconds) (held key) ∧
    ∀ w ∈ held key, 0 < w.count

theorem Counts.hit {store : String → Option CounterKey} {h : RatedHit ℤ}
    (counts : Counts redis rate held store)
    (positive : 0 < windowMs (rate h.key).seconds) (own : h.rate = rate h.key) :
    Counts redis rate
      (Function.update held h.key
        (some (take (windowMs (rate h.key).seconds) h.moment (held h.key))))
      (Function.update store (redis.redisKey h.key) (some (counterStep h.rate.times h.rate.seconds
        h.moment (store (redis.redisKey h.key))).2)) := by
  intro key
  by_cases same : key = h.key
  · subst same
    obtain ⟨stored, counted⟩ := counts h.key
    rw [Function.update_self, Function.update_self, stored, own]
    constructor
    · rw [counterStep, incrWithTtl_keyOf positive counted]
      rfl
    · intro w there
      obtain rfl := Option.some.inj there
      exact count_take_pos _ _
  · have elsewhere : redis.redisKey key ≠ redis.redisKey h.key := fun clash =>
      same (redisKey_injective redis.keyPrefix clash)
    rw [Function.update_of_ne elsewhere, Function.update_of_ne same]
    exact counts key

/-- The map holds the window of a key, unless other keys have driven it out. -/
inductive Kept (memory : InMemoryRateLimiter) (key : String) (past : List (RatedHit ℤ))
    (running : Option (Window ℤ)) (windows : Windows) : Prop
  | unused (fresh : ∀ h ∈ past, h.key ≠ key) (idle : running = none)
      (absent : locate key windows = none)
  | used (before : List (RatedHit ℤ)) (last : RatedHit ℤ) (since : List (RatedHit ℤ))
      (w : Window ℤ) (split : past = before ++ last :: since) (own : last.key = key)
      (others : ∀ h ∈ since, h.key ≠ key) (runs : running = some w)
      (stays : (since.map RatedHit.key).dedup.length < memory.maxKeys →
        Stays key (windowEntry w) (since.map RatedHit.key) windows)

variable {running : Option (Window ℤ)} {windows : Windows}

/-- A hit finds the window, if the key has been hit often enough. -/
theorem Kept.found {h : RatedHit ℤ} (kept : Kept memory h.key past running windows)
    (frequent : Frequent memory.maxKeys h.key (past ++ [h])) :
    get h.key windows = running.map windowEntry := by
  cases kept with
  | unused fresh idle absent =>
      rw [Recency.get, absent, idle]
      rfl
  | used before last since w split own others runs stays =>
      have close := frequent before last since h [] (by rw [split, List.append_assoc]; rfl) own
        rfl others
      rw [runs]
      exact (stays close).get_eq

/-- A hit on another key. -/
theorem Kept.other {h : RatedHit ℤ} (kept : Kept memory key past running windows)
    (apart : h.key ≠ key) (distinct : (keys windows).Nodup) (value : ℚ × ℕ) :
    Kept memory key (past ++ [h]) running (put memory.maxKeys h.key value windows) := by
  have apart' : ∀ g ∈ [h], g.key ≠ key := fun g same => by
    rwa [List.mem_singleton.mp same]
  cases kept with
  | unused fresh idle absent =>
      refine .unused (fun g member => ?_) idle (locate_put_eq_none distinct apart absent)
      rcases List.mem_append.mp member with old | new
      · exact fresh g old
      · exact apart' g new
  | used before last since w split own others runs stays =>
      refine .used before last (since ++ [h]) w ?_ own (fun g member => ?_) runs fun few => ?_
      · rw [split, List.append_assoc]
        rfl
      · rcases List.mem_append.mp member with old | new
        · exact others g old
        · exact apart' g new
      · rw [List.map_append] at few ⊢
        have fewer : (since.map RatedHit.key).dedup.length ≤
            (since.map RatedHit.key ++ [h.key]).dedup.length :=
          ((List.nodup_dedup _).subperm fun k inside => List.mem_dedup.mpr
            (List.mem_append_left _ (List.mem_dedup.mp inside))).length_le
        exact stays_put_of_ne distinct apart few (stays (fewer.trans_lt few))

/-- A hit on the key itself. -/
theorem Kept.hit {h : RatedHit ℤ} {rate : Rate} (kept : Kept memory h.key past running windows)
    (frequent : Frequent memory.maxKeys h.key (past ++ [h])) (room : 1 ≤ memory.maxKeys)
    (distinct : (keys windows).Nodup) (rounds : Rounds rate h.moment running) :
    Kept memory h.key (past ++ [h]) (some (take (windowMs rate.seconds) h.moment running))
      (memory.hit h.key rate.times rate.seconds (floatSeconds h.moment) windows).2 := by
  have taken := window_eq rounds.1
  simp only [windowEntry, Prod.mk.injEq] at taken
  refine .used past h [] _ rfl rfl (fun g none_ => absurd none_ List.not_mem_nil) rfl fun _ => ?_
  simp only [InMemoryRateLimiter.hit, kept.found frequent, taken.1, taken.2]
  exact stays_put_self distinct room

end Holds

/-! ## Runs -/

theorem told_of_runStep {b : Backend} {s next : RunState b} {h : RatedHit b.Moment}
    (taken : runStep b s h = some next) (key : String) :
    next.told key = s.told key ++ if h.key = key then [(b.hit h s.store).1] else [] := by
  obtain ⟨-, rfl⟩ := runStep_eq_some.mp taken
  rw [RunState.told, List.filter_append, List.map_append, ← RunState.told]
  by_cases own : h.key = key
  · simp only [List.filter_cons, List.filter_nil, decide_eq_true own, if_true, if_pos own,
      List.map_cons, List.map_nil]
  · simp only [List.filter_cons, List.filter_nil, decide_eq_false own, Bool.false_eq_true,
      if_false, if_neg own, List.map_nil]

section Runs

variable {redis : RedisRateLimiter} {memory : InMemoryRateLimiter} {rate : String → Rate}
  {past : List (RatedHit ℤ)} {held : KeyWindows}
  {s : RunState (LimiterClass.redisRateLimiter redis).backend}
  {t : RunState (LimiterClass.inMemoryRateLimiter memory).backend}

/-- What is known of the limiters after the same hits. -/
structure Compared (redis : RedisRateLimiter) (memory : InMemoryRateLimiter)
    (rate : String → Rate) (past : List (RatedHit ℤ)) (held : KeyWindows)
    (s : RunState (LimiterClass.redisRateLimiter redis).backend)
    (t : RunState (LimiterClass.inMemoryRateLimiter memory).backend) : Prop where
  counts : Counts redis rate held s.store
  bounded : Bounded memory t.store
  kept : ∀ key, Frequent memory.maxKeys key past →
    EveryStep (windowStep rate) (RoundsOn rate key) (fun _ => none) past →
      Kept memory key past (held key) t.store
  told : ∀ key, Frequent memory.maxKeys key past →
    ((s.told key).map RateLimitResult.inFloats = t.told key ↔
      EveryStep (windowStep rate) (RoundsOn rate key) (fun _ => none) past)

/-- A condition on one more hit. -/
theorem everyStep_hit {key : String} {h : RatedHit ℤ}
    (windows : exec (windowStep rate) (fun _ => none) past = some held) :
    EveryStep (windowStep rate) (RoundsOn rate key) (fun _ => none) (past ++ [h]) ↔
      EveryStep (windowStep rate) (RoundsOn rate key) (fun _ => none) past ∧
        RoundsOn rate key held h := by
  rw [everyStep_append windows]
  exact and_congr_right fun _ => and_iff_left fun _ _ => trivial

/-- One more hit on the key has one result exactly if the differences round. -/
theorem Compared.result_iff {h : RatedHit ℤ} (compared : Compared redis memory rate past held s t)
    (positive : 0 < windowMs (rate h.key).seconds) (own : h.rate = rate h.key)
    (frequent : Frequent memory.maxKeys h.key (past ++ [h]))
    (every : EveryStep (windowStep rate) (RoundsOn rate h.key) (fun _ => none) past) :
    ((LimiterClass.redisRateLimiter redis).backend.hit h s.store).1.inFloats =
        ((LimiterClass.inMemoryRateLimiter memory).backend.hit h.inSeconds t.store).1 ↔
      Rounds (rate h.key) h.moment (held h.key) := by
  obtain ⟨stored, counted⟩ := compared.counts h.key
  have found := (compared.kept h.key frequent.init every).found frequent
  have redis_eq : ((LimiterClass.redisRateLimiter redis).backend.hit h s.store).1 =
      (counterStep h.rate.times h.rate.seconds h.moment (s.store (redis.redisKey h.key))).1 := rfl
  have memory_eq : ((LimiterClass.inMemoryRateLimiter memory).backend.hit h.inSeconds t.store).1 =
      (memory.hit h.key (rate h.key).times (rate h.key).seconds (floatSeconds h.moment)
        t.store).1 := by
    rw [← own]
    rfl
  rw [redis_eq, memory_eq, stored, own]
  exact result_agree_iff positive counted found

theorem Compared.hit {h : RatedHit ℤ}
    {next : RunState (LimiterClass.redisRateLimiter redis).backend}
    {next' : RunState (LimiterClass.inMemoryRateLimiter memory).backend}
    (compared : Compared redis memory rate past held s t) (room : 1 ≤ memory.maxKeys)
    (positive : 0 < windowMs (rate h.key).seconds) (own : h.rate = rate h.key)
    (windows : exec (windowStep rate) (fun _ => none) past = some held)
    (taken : runStep (LimiterClass.redisRateLimiter redis).backend s h = some next)
    (taken' : runStep (LimiterClass.inMemoryRateLimiter memory).backend t h.inSeconds =
      some next') :
    Compared redis memory rate (past ++ [h])
      (Function.update held h.key
        (some (take (windowMs (rate h.key).seconds) h.moment (held h.key)))) next next' := by
  have told := told_of_runStep taken
  have told' := told_of_runStep taken'
  obtain ⟨_, rfl⟩ := runStep_eq_some.mp taken
  obtain ⟨_, rfl⟩ := runStep_eq_some.mp taken'
  have counted : Bounded memory (counted memory h.inSeconds t.store) := compared.bounded.counted
  refine ⟨compared.counts.hit positive own, counted, fun key frequent every => ?_,
    fun key frequent => ?_⟩
  · obtain ⟨before, rounds⟩ := (everyStep_hit windows).mp every
    have kept := compared.kept key frequent.init before
    by_cases same : h.key = key
    · subst same
      rw [Function.update_self]
      have hit := kept.hit frequent room compared.bounded.distinct (rounds rfl)
      rw [← own] at hit ⊢
      exact hit
    · rw [Function.update_of_ne (Ne.symm same)]
      exact kept.other same compared.bounded.distinct _
  · rw [everyStep_hit windows, told, told', List.map_append]
    by_cases same : h.key = key
    · subst same
      have same' : h.inSeconds.key = h.key := rfl
      rw [if_pos rfl, if_pos same', List.map_singleton, List.append_singleton_inj,
        compared.told h.key frequent.init]
      exact and_congr_right fun every => (compared.result_iff positive own frequent every).trans
        ⟨fun rounds _ => rounds, fun rounds => rounds rfl⟩
    · have same' : h.inSeconds.key ≠ key := same
      rw [if_neg same, if_neg same', List.map_nil, List.append_nil, List.append_nil,
        compared.told key frequent.init]
      exact (and_iff_left fun here => absurd here same).symm

/-- **The two limiters hold the same windows after every run.** -/
theorem compared_run (room : 1 ≤ memory.maxKeys) (whole : ∀ key, 1 ≤ windowMs (rate key).seconds)
    (rated : ∀ h ∈ past, h.rate = rate h.key)
    (run : exec (runStep (LimiterClass.redisRateLimiter redis).backend) {} past = some s)
    (run' : exec (runStep (LimiterClass.inMemoryRateLimiter memory).backend) {}
      (past.map RatedHit.inSeconds) = some t) :
    ∃ held, exec (windowStep rate) (fun _ => none) past = some held ∧
      Compared redis memory rate past held s t := by
  induction past using List.reverseRecOn generalizing s t with
  | nil =>
      obtain rfl := Option.some.inj run
      obtain rfl := Option.some.inj run'
      refine ⟨_, rfl, ⟨fun key => ⟨rfl, fun w none_ => by cases none_⟩,
        ⟨List.nodup_nil, Nat.zero_le _⟩, fun key _ _ => .unused ?_ rfl rfl, fun key _ => ?_⟩⟩
      · exact fun h none_ => absurd none_ List.not_mem_nil
      · exact iff_of_true rfl trivial
  | append_singleton past h ih =>
      have mapped : exec (runStep (LimiterClass.inMemoryRateLimiter memory).backend) {}
          (past.map RatedHit.inSeconds ++ [h.inSeconds]) = some t :=
        (congrArg (exec _ _) List.map_append.symm).trans run'
      obtain ⟨s₀, first, step⟩ := exec_concat_eq_some run
      obtain ⟨t₀, first', step'⟩ := exec_concat_eq_some mapped
      obtain ⟨held, windows, compared⟩ :=
        ih (fun g member => rated g (List.mem_append_left _ member)) first first'
      have own : h.rate = rate h.key := rated h (List.mem_append_right _ List.mem_cons_self)
      refine ⟨_, ?_, compared.hit room (whole h.key) own windows step step'⟩
      rw [exec_append_of_eq_some windows]
      rfl

/-- **When the two limiters agree.** Each key has one rate, whose window is a millisecond at
least, and the two limiters see the same hits. If fewer distinct other keys than the in-memory
limiter has room for are hit between any two consecutive hits on a key, the hits on it are told
the same by both exactly if the differences of floats round as the milliseconds go at each of
them; and so they are if they come at whole eighths of a second, under a rate of so many. And the
in-memory limiter never holds more keys than it has room for. -/
theorem fixed_window_limiters_agree (redis : RedisRateLimiter) (memory : InMemoryRateLimiter)
    (room : 1 ≤ memory.maxKeys) (rate : String → Rate)
    (whole : ∀ key, 1 ≤ windowMs (rate key).seconds) (hits : List (RatedHit ℤ))
    (rated : ∀ h ∈ hits, h.rate = rate h.key)
    (s : RunState (LimiterClass.redisRateLimiter redis).backend)
    (t : RunState (LimiterClass.inMemoryRateLimiter memory).backend)
    (run : exec (runStep (LimiterClass.redisRateLimiter redis).backend) {} hits = some s)
    (run' : exec (runStep (LimiterClass.inMemoryRateLimiter memory).backend) {}
      (hits.map RatedHit.inSeconds) = some t) :
    (∀ key, Frequent memory.maxKeys key hits →
      ((s.told key).map RateLimitResult.inFloats = t.told key ↔
        EveryStep (windowStep rate) (RoundsOn rate key) (fun _ => none) hits) ∧
      (InEighths rate key hits → (s.told key).map RateLimitResult.inFloats = t.told key)) ∧
    (t.store : Windows).length ≤ memory.maxKeys := by
  obtain ⟨held, -, compared⟩ := compared_run room whole rated run run'
  refine ⟨fun key frequent => ?_, compared.bounded.length⟩
  have told := compared.told key frequent
  exact ⟨told, fun eighths => told.mpr (everyStep_of_eighths eighths)⟩

end Runs

/-- Hits on two keys, with room for two. -/
def twoKeys : List (RatedHit ℤ) :=
  [⟨"a", perSecond, 0⟩, ⟨"b", perSecond, 400⟩, ⟨"b", perSecond, 900⟩, ⟨"a", perSecond, 1000⟩]

theorem two_keys_agree :
    ∃ s ∈ exec (runStep (LimiterClass.redisRateLimiter {}).backend) {} twoKeys,
      ∃ t ∈ exec (runStep (LimiterClass.inMemoryRateLimiter { maxKeys := 2 }).backend) {}
        (twoKeys.map RatedHit.inSeconds),
        (s.told "b").map RateLimitResult.inFloats = t.told "b" := by
  have first : (exec (runStep (LimiterClass.redisRateLimiter {}).backend) {} twoKeys).isSome := by
    decide +kernel
  have second : (exec (runStep (LimiterClass.inMemoryRateLimiter { maxKeys := 2 }).backend) {}
      (twoKeys.map RatedHit.inSeconds)).isSome := by
    decide +kernel
  obtain ⟨s, run⟩ := Option.isSome_iff_exists.mp first
  obtain ⟨t, run'⟩ := Option.isSome_iff_exists.mp second
  have few : (twoKeys.map RatedHit.key).dedup.length ≤ 2 := by decide
  exact ⟨s, run, t, run', ((fixed_window_limiters_agree {} { maxKeys := 2 } (by decide)
    (fun _ => perSecond) (fun _ => by decide +kernel) twoKeys (by decide) s t run run').1 "b"
      (frequent_of_few few)).1.mpr (by decide +kernel)⟩

/-- Two hits a second apart. -/
def aSecondApart : List (RatedHit ℤ) := [⟨"k", perSecond, 1⟩, ⟨"k", perSecond, 1001⟩]

/-- **A hit on the boundary is allowed by Redis and denied in memory.** The float of 1.001 less
that of 0.001 is less than one. -/
theorem boundary_hit_disagrees :
    Frequent 1 "k" aSecondApart ∧
      ∃ s ∈ exec (runStep (LimiterClass.redisRateLimiter {}).backend) {} aSecondApart,
        ∃ t ∈ exec (runStep (LimiterClass.inMemoryRateLimiter { maxKeys := 1 }).backend) {}
          (aSecondApart.map RatedHit.inSeconds),
          (s.told "k").map RateLimitResult.allowed = [true, true] ∧
            (t.told "k").map RateLimitResult.allowed = [true, false] :=
  ⟨frequent_of_few (by decide), by decide +kernel⟩

end PyCommon.Cache
