import Mathlib.Tactic.Linarith
import PyCommon.Cache.FixedWindow
import PyCommon.Lib.Runs

/-!
# Several rates on one key

A route that stacks two rate-limit dependencies on one limiter hits one key under two
rates. None of the three limiters keeps the rates apart: a hit counts on from what it
finds on its key, whichever rate has left it there, and a window ends when the rate that
happens to write it says so. So a per-second rate in front of a per-minute one keeps
resetting what the latter counts (`stacked_rates_interfere`).

As long as no hit finds a window that was last counted under another rate, each rate is
enforced as if it were alone: the hits under it have the results that they have without
the hits of the other rates on that key (`rates_independent`). The two runs are compared
by unwinding: what the key holds is the same in both, or, while another rate is using it,
what it held for the rate at hand ends no later than what is there now (`Unwinding`).
-/

set_option autoImplicit false

namespace PyCommon.Cache

open StepSystem

/-! ## Limiters and hits -/

/-- A hit on a key under a rate, with what the limiter sees of the moment it is made. -/
structure RatedHit (Moment : Type) where
  key : String
  rate : Rate
  moment : Moment

/-- A limiter with everything it keeps. A hit `finds` a window if it counts on from one. -/
structure Backend where
  Moment : Type
  Store : Type
  clock : Moment → ℚ
  empty : Store
  hit : RatedHit Moment → Store → RateLimitResult × Store
  finds : RatedHit Moment → Store → Bool

/-- A limiter that runs a script on a Redis key of its own for each key. -/
def redisBackend {Moment Key : Type} (redisKey : String → String) (clock : Moment → ℤ)
    (live : ℤ → Option Key → Option Key)
    (run : Rate → Moment → Option Key → RateLimitResult × Option Key) : Backend where
  Moment := Moment
  Store := String → Option Key
  clock m := clock m
  empty _ := none
  hit h store :=
    let (result, key) := run h.rate h.moment (store (redisKey h.key))
    (result, Function.update store (redisKey h.key) key)
  finds h store := (live (clock h.moment) (store (redisKey h.key))).isSome

/-- A hit of `RedisRateLimiter` on what its Redis key holds. -/
def counterRun (rate : Rate) (now : ℤ) (key : Option CounterKey) :
    RateLimitResult × Option CounterKey :=
  let (result, key) := counterStep rate.times rate.seconds now key
  (result, some key)

/-- A hit of `RedisSlidingWindowRateLimiter` on what its Redis key holds. -/
def slidingRun (rate : Rate) (h : Hit) (key : Option SortedSetKey) :
    RateLimitResult × Option SortedSetKey :=
  hitStep rate.times rate.seconds key h

/-- The three limiter classes. -/
inductive LimiterClass where
  | redisRateLimiter (limiter : RedisRateLimiter)
  | redisSlidingWindowRateLimiter (limiter : RedisSlidingWindowRateLimiter)
  | inMemoryRateLimiter (limiter : InMemoryRateLimiter)

def LimiterClass.backend : LimiterClass → Backend
  | .redisRateLimiter limiter =>
      redisBackend limiter.redisKey id liveCounter counterRun
  | .redisSlidingWindowRateLimiter limiter =>
      redisBackend limiter.redisKey Hit.now live slidingRun
  | .inMemoryRateLimiter limiter =>
      { Moment := ℚ
        Store := Windows
        clock := id
        empty := []
        hit := fun h windows => limiter.hit h.key h.rate.times h.rate.seconds h.moment windows
        finds := fun h windows => (Recency.get h.key windows).any fun held =>
          floatSub h.moment held.1 < h.rate.seconds }

/-! ## Runs -/

/-- The state of a run, with the rate of the last hit on each key, the time of the last
hit, and the results so far. -/
structure RunState (b : Backend) where
  store : b.Store := b.empty
  last : String → Option Rate := fun _ => none
  now : Option ℚ := none
  log : List (RatedHit b.Moment × RateLimitResult) := []

/-- One hit. The clock does not go back. -/
def runStep (b : Backend) (s : RunState b) (h : RatedHit b.Moment) : Option (RunState b) :=
  if ∀ t ∈ s.now, t ≤ b.clock h.moment then
    let (result, store) := b.hit h s.store
    some { store, last := Function.update s.last h.key (some h.rate),
           now := some (b.clock h.moment), log := s.log ++ [(h, result)] }
  else none

/-- What the hits on a key under a rate were told. -/
def RunState.under {b : Backend} (s : RunState b) (key : String) (rate : Rate) :
    List (RatedHit b.Moment × RateLimitResult) :=
  s.log.filter fun entry => entry.1.key = key ∧ entry.1.rate = rate

/-- The hits without those on the key under other rates. -/
def alone {Moment : Type} (key : String) (rate : Rate) (hits : List (RatedHit Moment)) :
    List (RatedHit Moment) :=
  hits.filter fun h => h.key ≠ key ∨ h.rate = rate

/-- Each rate on each key is enforced as if it were alone on it: its hits are allowed and
denied as without the hits under the other rates. -/
def Independent (b : Backend) (hits : List (RatedHit b.Moment)) : Prop :=
  ∀ s, exec (runStep b) {} hits = some s → ∀ key rate,
    ∃ t, exec (runStep b) {} (alone key rate hits) = some t ∧
      (s.under key rate).map (fun entry => entry.2.allowed) =
        (t.under key rate).map fun entry => entry.2.allowed

/-- The window that a hit finds was last counted under its own rate. -/
def Unshared {b : Backend} (s : RunState b) (h : RatedHit b.Moment) : Prop :=
  b.finds h s.store = true → s.last h.key = some h.rate

instance {b : Backend} (s : RunState b) (h : RatedHit b.Moment) : Decidable (Unshared s h) :=
  inferInstanceAs (Decidable (b.finds h s.store = true → s.last h.key = some h.rate))

/-! ## Unwinding -/

/-- How what a limiter holds of a key compares with and without the hits of the other
rates. In `same` the two agree on the key. In `older` another rate is using the key, and
what is held without it ends no later. -/
structure Unwinding (b : Backend) (key : String) where
  same : b.Store → b.Store → Prop
  older : Option ℚ → b.Store → b.Store → Prop
  start : older none b.empty b.empty
  same_other : ∀ {s u h}, same s u → h.key ≠ key → same (b.hit h s).2 (b.hit h u).2
  older_other : ∀ {now s u h}, older now s u → h.key ≠ key →
    (∀ t ∈ now, t ≤ b.clock h.moment) →
      older (some (b.clock h.moment)) (b.hit h s).2 (b.hit h u).2
  same_hit : ∀ {s u h}, same s u → h.key = key →
    (b.hit h s).1 = (b.hit h u).1 ∧ same (b.hit h s).2 (b.hit h u).2
  older_hit : ∀ {now s u h}, older now s u → h.key = key → b.finds h s = false →
    (∀ t ∈ now, t ≤ b.clock h.moment) →
      (b.hit h s).1 = (b.hit h u).1 ∧ same (b.hit h s).2 (b.hit h u).2
  same_dropped : ∀ {s u h}, same s u → h.key = key → b.finds h s = false →
    older (some (b.clock h.moment)) (b.hit h s).2 u
  older_dropped : ∀ {now s u h}, older now s u → h.key = key →
    (∀ t ∈ now, t ≤ b.clock h.moment) → older (some (b.clock h.moment)) (b.hit h s).2 u

/-- A run and the run without the other rates, as far as the rate on the key goes. -/
structure Related {b : Backend} {key : String} (unwinding : Unwinding b key) (rate : Rate)
    (s t : RunState b) : Prop where
  now : ∀ u ∈ t.now, ∃ v ∈ s.now, u ≤ v
  log : s.under key rate = t.under key rate
  store : s.last key = some rate ∧ unwinding.same s.store t.store ∨
    s.last key ≠ some rate ∧ unwinding.older s.now s.store t.store

theorem runStep_eq_some {b : Backend} {s next : RunState b} {h : RatedHit b.Moment} :
    runStep b s h = some next ↔ (∀ t ∈ s.now, t ≤ b.clock h.moment) ∧
      next = { store := (b.hit h s.store).2, last := Function.update s.last h.key (some h.rate),
               now := some (b.clock h.moment), log := s.log ++ [(h, (b.hit h s.store).1)] } := by
  rw [runStep]
  split
  · rename_i ordered
    rw [Option.some.injEq]
    exact ⟨fun same => ⟨ordered, same.symm⟩, fun same => same.2.symm⟩
  · rename_i refused
    exact ⟨fun taken => absurd taken.symm (Option.some_ne_none _), fun taken =>
      absurd taken.1 refused⟩

section Unwound

variable {b : Backend} {key : String} {unwinding : Unwinding b key} {rate : Rate}

theorem under_append {s : RunState b} {store : b.Store} {last : String → Option Rate}
    {now : Option ℚ} {h : RatedHit b.Moment} {result : RateLimitResult} :
    RunState.under ⟨store, last, now, s.log ++ [(h, result)]⟩ key rate =
      s.under key rate ++ if h.key = key ∧ h.rate = rate then [(h, result)] else [] := by
  rw [RunState.under, List.filter_append, ← RunState.under]
  by_cases counted : h.key = key ∧ h.rate = rate
  · simp only [List.filter_cons, List.filter_nil, decide_eq_true counted, if_true, if_pos counted]
  · simp only [List.filter_cons, List.filter_nil, decide_eq_false counted, Bool.false_eq_true,
      if_false, if_neg counted]

/-- A hit that is in both runs. -/
theorem related_kept {s u next : RunState b} {h : RatedHit b.Moment} (unshared : Unshared s h)
    (kept : h.key ≠ key ∨ h.rate = rate) (related : Related unwinding rate s u)
    (taken : runStep b s h = some next) :
    ∃ next', runStep b u h = some next' ∧ Related unwinding rate next next' := by
  obtain ⟨ordered, rfl⟩ := runStep_eq_some.mp taken
  have ordered' : ∀ t ∈ u.now, t ≤ b.clock h.moment := fun t before => by
    obtain ⟨v, later, le⟩ := related.now t before
    exact le.trans (ordered v later)
  have now : ∀ t ∈ some (b.clock h.moment), ∃ v ∈ some (b.clock h.moment), t ≤ v :=
    fun t same => ⟨t, same, le_rfl⟩
  refine ⟨_, runStep_eq_some.mpr ⟨ordered', rfl⟩, ?_⟩
  by_cases own : h.key = key
  · obtain rfl := kept.resolve_left (not_not_intro own)
    have agree : (b.hit h s.store).1 = (b.hit h u.store).1 ∧
        unwinding.same (b.hit h s.store).2 (b.hit h u.store).2 := by
      rcases related.store with ⟨_, same⟩ | ⟨other, older⟩
      · exact unwinding.same_hit same own
      · refine unwinding.older_hit older own ?_ ordered
        rw [Bool.eq_false_iff]
        exact fun found => other (own ▸ unshared found)
    refine ⟨now, ?_, .inl ⟨?_, agree.2⟩⟩
    · rw [under_append, under_append, related.log, agree.1]
    · rw [← own]
      exact Function.update_self ..
  · refine ⟨now, ?_, ?_⟩
    · have uncounted : ¬ (h.key = key ∧ h.rate = rate) := fun both => own both.1
      rw [under_append, under_append, related.log, if_neg uncounted, if_neg uncounted]
    · have last : Function.update s.last h.key (some h.rate) key = s.last key :=
        Function.update_of_ne (Ne.symm own) ..
      rcases related.store with ⟨here, same⟩ | ⟨other, older⟩
      · exact .inl ⟨last.trans here, unwinding.same_other same own⟩
      · exact .inr ⟨fun here => other (last.symm.trans here),
          unwinding.older_other older own ordered⟩

/-- A hit that is left out of the one run. -/
theorem related_dropped {s u next : RunState b} {h : RatedHit b.Moment} (unshared : Unshared s h)
    (dropped : ¬ (h.key ≠ key ∨ h.rate = rate)) (related : Related unwinding rate s u)
    (taken : runStep b s h = some next) : Related unwinding rate next u := by
  obtain ⟨ordered, rfl⟩ := runStep_eq_some.mp taken
  rw [not_or, not_not] at dropped
  obtain ⟨rfl, other⟩ := dropped
  refine ⟨fun t before => ?_, ?_, .inr ⟨?_, ?_⟩⟩
  · obtain ⟨v, later, le⟩ := related.now t before
    exact ⟨_, rfl, le.trans (ordered v later)⟩
  · rw [under_append, if_neg fun both => other both.2, List.append_nil, related.log]
  · intro here
    have last : Function.update s.last h.key (some h.rate) h.key = some h.rate :=
      Function.update_self ..
    exact other (Option.some.inj (last.symm.trans here))
  · rcases related.store with ⟨here, same⟩ | ⟨_, older⟩
    · refine unwinding.same_dropped same rfl ?_
      rw [Bool.eq_false_iff]
      intro found
      exact other (Option.some.inj (here.symm.trans (unshared found))).symm
    · exact unwinding.older_dropped older rfl ordered

/-- A limiter that unwinds enforces each rate as if it were alone, as long as no hit finds
a window of another rate. -/
theorem independent_of_unwinding {hits : List (RatedHit b.Moment)}
    (unwinds : ∀ key, Unwinding b key)
    (unshared : EveryStep (runStep b) Unshared {} hits) : Independent b hits := by
  intro s run key rate
  let unwinding := unwinds key
  have start : Related unwinding rate {} {} := by
    refine ⟨fun t before => ?_, rfl, .inr ⟨fun before => ?_, unwinding.start⟩⟩
    all_goals cases before
  have kept (s u : RunState b) (h : RatedHit b.Moment) (next : RunState b) (whole : Unshared s h)
      (stays : decide (h.key ≠ key ∨ h.rate = rate) = true) (related : Related unwinding rate s u)
      (taken : runStep b s h = some next) :
      ∃ next', runStep b u h = some next' ∧ Related unwinding rate next next' :=
    related_kept whole (of_decide_eq_true stays) related taken
  have dropped (s u : RunState b) (h : RatedHit b.Moment) (next : RunState b)
      (whole : Unshared s h) (leaves : decide (h.key ≠ key ∨ h.rate = rate) = false)
      (related : Related unwinding rate s u) (taken : runStep b s h = some next) :
      Related unwinding rate next u :=
    related_dropped whole (of_decide_eq_false leaves) related taken
  obtain ⟨t, ends, related⟩ := exec_filter kept dropped run unshared start
  exact ⟨t, ends, by rw [related.log]⟩

end Unwound

/-! ### The Redis limiters -/

section Redis

variable {Moment Key : Type} {redisKey : String → String} {clock : Moment → ℤ}
  {live : ℤ → Option Key → Option Key}
  {run : Rate → Moment → Option Key → RateLimitResult × Option Key}

theorem redisBackend_finds {h : RatedHit Moment} {s : String → Option Key} :
    (redisBackend redisKey clock live run).finds h s = false ↔
      live (clock h.moment) (s (redisKey h.key)) = none := by
  simp only [redisBackend, Option.isSome_eq_false_iff, Option.isNone_iff_eq_none]

/-- A hit whose script does the same on two keys has one result and leaves one key. -/
theorem redisBackend_hit {h : RatedHit Moment} {s u : String → Option Key}
    (agree : run h.rate h.moment (s (redisKey h.key)) = run h.rate h.moment (u (redisKey h.key))) :
    ((redisBackend redisKey clock live run).hit h s).1 =
        ((redisBackend redisKey clock live run).hit h u).1 ∧
      ((redisBackend redisKey clock live run).hit h s).2 (redisKey h.key) =
        ((redisBackend redisKey clock live run).hit h u).2 (redisKey h.key) := by
  simp only [redisBackend]
  refine ⟨congrArg Prod.fst agree, ?_⟩
  rw [Function.update_self, Function.update_self, agree]

variable (clock run) in
/-- A script that sees nothing of a key that is gone unwinds: a key that another rate has
begun anew had expired. -/
def redisUnwinding (distinct : Function.Injective redisKey) (absent : ∀ now, live now none = none)
    (gone : ∀ {now later key}, now ≤ later → live now key = none → live later key = none)
    (blank : ∀ {rate m key}, live (clock m) key = none → run rate m key = run rate m none)
    (key : String) : Unwinding (redisBackend redisKey clock live run) key where
  same s u := s (redisKey key) = u (redisKey key)
  older now _ u := ∀ later : ℤ, (∀ t ∈ now, t ≤ (later : ℚ)) → live later (u (redisKey key)) = none
  start later _ := absent later
  same_other {s u h} same other := by
    have apart : redisKey key ≠ redisKey h.key := fun clash => other (distinct clash).symm
    exact (Function.update_of_ne apart ..).trans (same.trans (Function.update_of_ne apart ..).symm)
  older_other {now s u h} older other ordered later after := by
    have apart : redisKey key ≠ redisKey h.key := fun clash => other (distinct clash).symm
    have kept := older later fun t before => (ordered t before).trans (after _ rfl)
    exact (congrArg (live later) (Function.update_of_ne apart ..)).trans kept
  same_hit {s u h} same own := by
    subst own
    exact redisBackend_hit (congrArg (run h.rate h.moment) same)
  older_hit {now s u h} older own free ordered := by
    subst own
    have expired := older (clock h.moment) ordered
    exact redisBackend_hit ((blank (redisBackend_finds.mp free)).trans (blank expired).symm)
  same_dropped {s u h} same own free later after := by
    subst own
    have first := redisBackend_finds.mp free
    rw [same] at first
    exact gone (Int.cast_le.mp (after _ rfl)) first
  older_dropped {now s u h} older _ ordered later after :=
    older later fun t before => (ordered t before).trans (after _ rfl)

end Redis

theorem redisKey_injective (keyPrefix : String) :
    Function.Injective fun key => keyPrefix ++ ":" ++ key := by
  intro first second same
  have lists := congrArg String.toList same
  simp only [String.toList_append, List.append_cancel_left_eq] at lists
  exact String.toList_inj.mp lists

theorem counterRun_of_gone {rate : Rate} {now : ℤ} {key : Option CounterKey}
    (gone : liveCounter now key = none) : counterRun rate now key = counterRun rate now none := by
  rw [counterRun, counterRun, counterStep_of_gone gone]

theorem live_eq_none_of_le {now later : ℤ} {key : Option SortedSetKey} (le : now ≤ later)
    (gone : live now key = none) : live later key = none := by
  cases key with
  | none => rfl
  | some held =>
      simp only [live, Option.filter_eq_none_iff, Option.some.injEq, forall_eq',
        Option.all_eq_true_iff_get, decide_eq_true_eq, not_forall, not_lt] at gone ⊢
      obtain ⟨bounded, past⟩ := gone
      exact ⟨bounded, past.trans le⟩

theorem hitStep_of_gone {times : ℕ} {seconds : ℚ} {key : Option SortedSetKey} {h : Hit}
    (gone : live h.now key = none) :
    hitStep times seconds key h = hitStep times seconds none h := by
  have now_eq : nowMs h.time = h.now := rfl
  simp only [hitStep, slidingWindow, now_eq, gone]
  rfl

/-! ### The in-memory limiter -/

section Memory

open Recency

variable {limiter : InMemoryRateLimiter} {key : String} {seconds now : ℚ} {windows : Windows}

/-- What a hit leaves. -/
def counted (limiter : InMemoryRateLimiter) (h : RatedHit ℚ) (windows : Windows) : Windows :=
  let w := window h.rate.seconds h.moment (get h.key windows)
  put limiter.maxKeys h.key (w.1, w.2 + 1) windows

/-- Only the window that a hit goes on with makes a difference to its result. -/
theorem hit_fst_congr {times : ℕ} {windows' : Windows}
    (same : window seconds now (get key windows) = window seconds now (get key windows')) :
    (limiter.hit key times seconds now windows).1 =
      (limiter.hit key times seconds now windows').1 := by
  simp only [InMemoryRateLimiter.hit, same]

theorem window_of_expired {held : Option (ℚ × ℕ)}
    (expired : ∀ w ∈ held, seconds ≤ floatSub now w.1) : window seconds now held = (now, 0) := by
  rw [window]
  cases held with
  | none =>
      rw [Option.getD_none]
      split <;> rfl
  | some w => exact if_pos (expired w rfl)

/-- A window never starts earlier than the one that is held. -/
theorem start_le_window {w : ℚ × ℕ} (positive : 0 < seconds) :
    w.1 ≤ (window seconds now (some w)).1 := by
  rw [window, Option.getD_some]
  split
  · rename_i expired
    exact (lt_of_floatSub_pos (positive.trans_le expired)).le
  · exact le_rfl

/-- The keys are distinct and no more than the bound. -/
structure Bounded (limiter : InMemoryRateLimiter) (windows : Windows) : Prop where
  distinct : (keys windows).Nodup
  length : windows.length ≤ limiter.maxKeys

/-- There is room for a key if there is one. -/
theorem Bounded.locate_put {found : (ℚ × ℕ) × List String} {value : ℚ × ℕ} {windows' : Windows}
    (bounded : Bounded limiter windows) (bounded' : Bounded limiter windows')
    (here : locate key windows' = some found) :
    locate key (Recency.put limiter.maxKeys key value windows) = some (value, []) := by
  have short := (mem_keys_of_locate here).2.2
  have room := bounded'.length
  rw [locate_put_self bounded.distinct, if_pos (by omega)]

/-- A hit that finds no window begins one, if there is an old one or not. -/
theorem expired_of_finds {h : RatedHit ℚ}
    (free : (LimiterClass.inMemoryRateLimiter limiter).backend.finds h windows = false) :
    ∀ w ∈ get h.key windows, h.rate.seconds ≤ floatSub h.moment w.1 := by
  intro w held
  have other : (get h.key windows).any (fun w => floatSub h.moment w.1 < h.rate.seconds) = false :=
    free
  rw [held, Option.any_some, decide_eq_false_iff_not, not_lt] at other
  exact other

theorem Bounded.counted {h : RatedHit ℚ} (bounded : Bounded limiter windows) :
    Bounded limiter (counted limiter h windows) :=
  ⟨nodup_put bounded.distinct, length_evict_le _ _⟩

/-- Hits that go on with the same window leave the same. -/
theorem locate_counted_congr {h : RatedHit ℚ} {windows' : Windows}
    (bounded : Bounded limiter windows) (bounded' : Bounded limiter windows')
    (agree : window h.rate.seconds h.moment (get h.key windows) =
      window h.rate.seconds h.moment (get h.key windows')) :
    locate h.key (counted limiter h windows) = locate h.key (counted limiter h windows') := by
  rw [Cache.counted, Cache.counted, locate_put_self bounded.distinct,
    locate_put_self bounded'.distinct, agree]

/-- The window of a key starts no earlier in the first map, and the key was used no earlier
there. -/
abbrev Later (key : String) (windows windows' : Windows) : Prop :=
  Newer (fun w w' => w'.1 ≤ w.1) key windows windows'

/-- What has expired in the newer map has expired in the older one. -/
theorem expired_of_later {h : RatedHit ℚ} {windows' : Windows}
    (later : Later h.key windows windows')
    (expired : ∀ w ∈ get h.key windows, h.rate.seconds ≤ floatSub h.moment w.1) :
    ∀ w ∈ get h.key windows', h.rate.seconds ≤ floatSub h.moment w.1 := by
  intro w' held'
  obtain ⟨found', here', rfl⟩ := Option.map_eq_some_iff.mp held'
  obtain ⟨found, here, le, _⟩ := later found' here'
  have past := expired found.1 (Option.map_eq_some_iff.mpr ⟨found, here, rfl⟩)
  have started := lt_of_floatSub_pos (h.rate.seconds_pos.trans_le past)
  exact past.trans (floatSub_anti started.le le)

/-- A hit on the newer map keeps it newer. -/
theorem later_counted {h : RatedHit ℚ} {windows' : Windows} (bounded : Bounded limiter windows)
    (bounded' : Bounded limiter windows') (later : Later h.key windows windows') :
    Later h.key (counted limiter h windows) windows' := by
  intro found' here'
  obtain ⟨found, here, le, _⟩ := later found' here'
  have held : get h.key windows = some found.1 := Option.map_eq_some_iff.mpr ⟨found, here, rfl⟩
  refine ⟨_, bounded.locate_put bounded' here', ?_, List.nil_subset _⟩
  rw [held]
  exact le.trans (start_le_window h.rate.seconds_pos)

variable (limiter) in
/-- The in-memory limiter unwinds: a window that another rate has begun anew started later,
and its key was used later. -/
def memoryUnwinding (key : String) :
    Unwinding (LimiterClass.inMemoryRateLimiter limiter).backend key where
  same s u := locate key s = locate key u ∧ Bounded limiter s ∧ Bounded limiter u
  older _ s u := Later key s u ∧ Bounded limiter s ∧ Bounded limiter u
  start := ⟨fun found here => (by cases here), ⟨List.nodup_nil, Nat.zero_le _⟩,
    ⟨List.nodup_nil, Nat.zero_le _⟩⟩
  same_other {s u h} same other := by
    obtain ⟨same, first, second⟩ := same
    exact ⟨locate_put_eq first.distinct second.distinct other same, first.counted, second.counted⟩
  older_other {_ s u h} older other _ := by
    obtain ⟨later, first, second⟩ := older
    exact ⟨newer_put_of_ne first.distinct second.distinct other later, first.counted,
      second.counted⟩
  same_hit {s u h} same own := by
    subst own
    obtain ⟨same, first, second⟩ := same
    have agree := congrArg (fun found => window h.rate.seconds h.moment (found.map Prod.fst)) same
    exact ⟨hit_fst_congr agree, locate_counted_congr first second agree, first.counted,
      second.counted⟩
  older_hit {_ s u h} older own free _ := by
    subst own
    obtain ⟨later, first, second⟩ := older
    have expired := expired_of_finds free
    have agree := (window_of_expired expired).trans
      (window_of_expired (expired_of_later later expired)).symm
    exact ⟨hit_fst_congr agree, locate_counted_congr first second agree, first.counted,
      second.counted⟩
  same_dropped {s u h} same own _ := by
    subst own
    obtain ⟨same, first, second⟩ := same
    have later : Later h.key s u := fun found here =>
      ⟨found, same.trans here, le_rfl, List.Subset.refl _⟩
    exact ⟨later_counted first second later, first.counted, second⟩
  older_dropped {_ s u h} older own _ := by
    subst own
    obtain ⟨later, first, second⟩ := older
    exact ⟨later_counted first second later, first.counted, second⟩

end Memory

/-! ## The three limiters -/

def RedisRateLimiter.unwinding (limiter : RedisRateLimiter) (key : String) :
    Unwinding (LimiterClass.redisRateLimiter limiter).backend key :=
  have distinct : Function.Injective limiter.redisKey := redisKey_injective limiter.keyPrefix
  have absent (now : ℤ) : liveCounter now none = none := rfl
  redisUnwinding id counterRun distinct absent liveCounter_eq_none_of_le counterRun_of_gone key

def RedisSlidingWindowRateLimiter.unwinding (limiter : RedisSlidingWindowRateLimiter)
    (key : String) : Unwinding (LimiterClass.redisSlidingWindowRateLimiter limiter).backend key :=
  have distinct : Function.Injective limiter.redisKey := redisKey_injective limiter.keyPrefix
  have absent (now : ℤ) : live now none = none := rfl
  redisUnwinding Hit.now slidingRun distinct absent live_eq_none_of_le hitStep_of_gone key

def LimiterClass.unwinding : (limiter : LimiterClass) → ∀ key, Unwinding limiter.backend key
  | .redisRateLimiter limiter => limiter.unwinding
  | .redisSlidingWindowRateLimiter limiter => limiter.unwinding
  | .inMemoryRateLimiter limiter => memoryUnwinding limiter

/-- **Rates that do not meet are independent.** In every history of any of the three
limiters in which no hit finds a window that was last counted under another rate, each
rate on each key is enforced as if it were alone on that key. -/
theorem rates_independent (limiter : LimiterClass) {hits : List (RatedHit limiter.backend.Moment)}
    (unshared : EveryStep (runStep limiter.backend) Unshared {} hits) :
    Independent limiter.backend hits :=
  independent_of_unwinding limiter.unwinding unshared

/-! ## Stacked rates -/

def perSecond : Rate := { times := 1, seconds := 1 }

def perMinute : Rate := { times := 2, seconds := 60 }

/-- Requests to a route that stacks the two rates. -/
def stacked {Moment : Type} (moments : List (Moment × Moment)) : List (RatedHit Moment) :=
  moments.flatMap fun m => [⟨"k", perSecond, m.1⟩, ⟨"k", perMinute, m.2⟩]

/-- The third hit within a minute is allowed, and would be denied without the other rate. -/
abbrev Interferes (b : Backend) (hits : List (RatedHit b.Moment)) : Prop :=
  ∃ s ∈ exec (runStep b) {} hits, ∃ t ∈ exec (runStep b) {} (alone "k" perMinute hits),
    (s.under "k" perMinute).map (fun entry => entry.2.allowed) = [true, true, true] ∧
      (t.under "k" perMinute).map (fun entry => entry.2.allowed) = [true, true, false]

theorem not_independent_of_interferes {b : Backend} {hits : List (RatedHit b.Moment)}
    (interferes : Interferes b hits) : ¬ Independent b hits := by
  rintro independent
  obtain ⟨s, run, t, ends, together, apart⟩ := interferes
  obtain ⟨u, ends', same⟩ := independent s run "k" perMinute
  obtain rfl := Option.some.inj (ends.symm.trans ends')
  rw [together, apart] at same
  cases same

/-- **One request a second is never stopped by two a minute.** In each of the three
limiters the per-second rate keeps resetting what the per-minute rate counts. -/
theorem stacked_rates_interfere :
    ¬ Independent (LimiterClass.redisRateLimiter {}).backend
        (stacked [(0, 0), (1000, 1000), (2000, 2000)] : List (RatedHit ℤ)) ∧
      ¬ Independent (LimiterClass.redisSlidingWindowRateLimiter {}).backend
        (stacked [(⟨(0, 0), "a"⟩, ⟨(0, 0), "b"⟩), (⟨(1, 0), "c"⟩, ⟨(1, 0), "d"⟩),
          (⟨(2, 0), "e"⟩, ⟨(2, 0), "f"⟩)] : List (RatedHit Hit)) ∧
      ¬ Independent (LimiterClass.inMemoryRateLimiter {}).backend
        (stacked [(0, 0), (1, 1), (2, 2)] : List (RatedHit ℚ)) := by
  refine ⟨not_independent_of_interferes ?_, not_independent_of_interferes ?_,
    not_independent_of_interferes ?_⟩
  all_goals decide +kernel

/-- Requests under one rate after the window of the other. -/
def apart : List (RatedHit (LimiterClass.redisRateLimiter {}).backend.Moment) :=
  ([⟨"k", perSecond, 0⟩, ⟨"k", perMinute, 2000⟩, ⟨"k", perMinute, 3000⟩,
    ⟨"k", perSecond, 63000⟩] : List (RatedHit ℤ))

theorem apart_independent :
    (exec (runStep (LimiterClass.redisRateLimiter {}).backend) {} apart).isSome ∧
      Independent (LimiterClass.redisRateLimiter {}).backend apart :=
  ⟨by decide +kernel, rates_independent (.redisRateLimiter {}) (by decide +kernel)⟩

end PyCommon.Cache
