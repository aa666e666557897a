import Mathlib.Algebra.Order.Group.Int
import Mathlib.Algebra.Order.Ring.Rat
import Mathlib.Data.Rat.Floor
import PyCommon.Asgi
import PyCommon.Cache.SortedSet
import PyCommon.Lib.BinaryFloats
import PyCommon.Lib.SlidingLog

/-!
# The sliding-window rate limiter

`RedisSlidingWindowRateLimiter` keeps one sorted-set entry for each allowed
request. Its script runs atomically against one Redis key: it trims the set,
counts what is left, and either adds an entry or reports when the oldest one
leaves the window. Every instance that shares the key shares the window, since an
instance keeps nothing between calls.

The limiter is a sliding-window gate: the sorted set seen at a later time, after
the key has lived or expired and after any trimming, holds in the window exactly
the times of the allowed hits (`Tracks`, `tracks_step`). So the results of a
sequence of hits are those of the gate that keeps the full log
(`hitLog_eq_record`), and the laws of such gates are laws of the limiter
(`sliding_window_exact`). In particular a denied hit is told when the oldest allowed
hit leaves its window, which is when the limiter allows the next one
(`sliding_reset_exact`).
-/

set_option autoImplicit false

namespace PyCommon.Cache

open SlidingLog

/-- `int(x)`: truncation towards zero. -/
def truncate (x : ℚ) : ℤ := if 0 ≤ x then x.floor else x.ceil

/-- Outcome of one rate-limit check. -/
structure RateLimitResult where
  allowed : Bool
  remaining : ℤ
  resetAfterSeconds : ℚ
  limit : ℤ := 0
  degraded : Bool := false
  deriving DecidableEq

/-- `_fail_open`. -/
def failOpenResult (times : ℕ) (seconds : ℚ) : RateLimitResult :=
  { allowed := true, remaining := times, resetAfterSeconds := seconds, limit := times,
    degraded := true }

/-- `int(seconds * 1000)`, a product of floats. -/
def windowMs (seconds : ℚ) : ℤ := truncate (BinaryFloats.binary64.round (seconds * 1000))

/-! ## The script -/

/-- What the script returns: whether the hit is allowed, the count and `reset_ms`. -/
structure ScriptReply where
  allowed : ℤ
  count : ℤ
  resetMs : ℤ
  deriving DecidableEq

/-- The milliseconds of a `TIME` reply, in seconds and microseconds. -/
def nowMs (time : ℕ × ℕ) : ℤ := (time.1 * 1000 + time.2 / 1000 : ℕ)

/-- `_SLIDING_WINDOW`, run when the server's clock reads `time`. -/
def slidingWindow (time : ℕ × ℕ) (window limit : ℤ) (member : String)
    (key : Option SortedSetKey) : ScriptReply × Option SortedSetKey :=
  let now := nowMs time
  let key := zremrangebyscore 0 (now - window) (live now key)
  let count : ℤ := zcard key
  if count < limit then
    (⟨1, count + 1, window⟩, pexpire now window (zadd now member key))
  else
    let resetMs :=
      match zrangeFirst key with
      | some oldest => oldest.score + window - now
      | none => window
    (⟨0, count, resetMs⟩, pexpire now window key)

/-! ## The limiter -/

structure RedisSlidingWindowRateLimiter where
  keyPrefix : String := "rate_limit"
  failOpen : Bool := true

/-- The key the script is given. -/
def RedisSlidingWindowRateLimiter.redisKey (limiter : RedisSlidingWindowRateLimiter)
    (key : String) : String :=
  limiter.keyPrefix ++ ":" ++ key

/-- The result built from the script's reply. -/
def replyResult (times : ℕ) (reply : ScriptReply) : RateLimitResult :=
  { allowed := reply.allowed ≠ 0
    remaining := max (times - reply.count) 0
    resetAfterSeconds := max (reply.resetMs / 1000) 0
    limit := times }

/-- `hit`, given what running the script gave. -/
def RedisSlidingWindowRateLimiter.hit (limiter : RedisSlidingWindowRateLimiter) (times : ℕ)
    (seconds : ℚ) (reply : Except PyExc ScriptReply) : Except PyExc RateLimitResult :=
  match reply with
  | .ok reply => .ok (replyResult times reply)
  | .error .redisError =>
      if limiter.failOpen then .ok (failOpenResult times seconds) else .error .redisError
  | .error e => .error e

/-- One hit: when the server executes its script, and the member the script is
given. -/
structure Hit where
  time : ℕ × ℕ
  member : String
  deriving DecidableEq

def Hit.now (h : Hit) : ℤ := nowMs h.time

/-- A hit that reaches Redis, on a key. -/
def hitStep (times : ℕ) (seconds : ℚ) (key : Option SortedSetKey) (h : Hit) :
    RateLimitResult × Option SortedSetKey :=
  let (reply, key) := slidingWindow h.time (windowMs seconds) times h.member key
  (replyResult times reply, key)

/-- A hit that reaches Redis returns this result, whichever instance makes it. -/
theorem hit_eq_hitStep (limiter : RedisSlidingWindowRateLimiter) (times : ℕ) (seconds : ℚ)
    (key : Option SortedSetKey) (h : Hit) :
    limiter.hit times seconds
        (.ok (slidingWindow h.time (windowMs seconds) times h.member key).1) =
      .ok (hitStep times seconds key h).1 := rfl

/-- The results of a sequence of hits on one key. -/
def hitLog (times : ℕ) (seconds : ℚ) : Option SortedSetKey → List Hit →
    List (Hit × RateLimitResult)
  | _, [] => []
  | key, h :: hs =>
      let (result, key) := hitStep times seconds key h
      (h, result) :: hitLog times seconds key hs

/-! ## The limiter as a gate -/

/-- The answer of the limiter, from the times of the allowed hits in the window. -/
def verdict (times : ℕ) (seconds : ℚ) (now : ℤ) (active : List ℤ) : RateLimitResult :=
  replyResult times <|
    if active.length < times then ⟨1, active.length + 1, windowMs seconds⟩
    else
      ⟨0, active.length,
        match active.min? with
        | some oldest => oldest + windowMs seconds - now
        | none => windowMs seconds⟩

/-- The limiter allows a hit exactly when there is room in the window. -/
theorem verdict_allowed_iff (times : ℕ) (seconds : ℚ) (now : ℤ) (active : List ℤ) :
    (verdict times seconds now active).allowed = true ↔ active.length < times := by
  unfold verdict
  split
  · rename_i room
    simp [replyResult, room]
  · rename_i full
    simp [replyResult, full]

/-- The key holds the times of the allowed hits, as far as any later hit can see.
`used` are the members given to the script so far. -/
structure Tracks (window now : ℤ) (key : Option SortedSetKey) (used : List String)
    (log : List ℤ) : Prop where
  visible : ∀ t, now ≤ t → inWindow window t (scores (live t key)) = inWindow window t log
  past : ∀ s ∈ log, s ≤ now
  nonneg : ∀ s ∈ scores key, 0 ≤ s
  known : members key ⊆ used

theorem tracks_none (window now : ℤ) : Tracks window now none [] [] where
  visible _ _ := rfl
  past _ member := by cases member
  nonneg _ member := by cases member
  known := List.Subset.refl _

/-- Trimming leaves the scores in the window. -/
theorem scores_trimmed {window now : ℤ} {key : Option SortedSetKey}
    (nonneg : ∀ s ∈ scores key, 0 ≤ s) :
    scores (zremrangebyscore 0 (now - window) key) = inWindow window now (scores key) := by
  rw [scores_zremrangebyscore, inWindow]
  refine List.filter_congr fun s member => ?_
  have := nonneg s member
  simp only [this, true_and, not_le]

theorem inWindow_subset (window now : ℤ) (log : List ℤ) : inWindow window now log ⊆ log :=
  List.filter_subset_self _

/-- Giving the key a deadline one window away hides nothing that a later hit
would count. -/
theorem Tracks.of_pexpire {window now : ℤ} {key : Option SortedSetKey} {used : List String}
    {log : List ℤ} (held : ∀ t, now ≤ t → inWindow window t (scores key) = inWindow window t log)
    (past : ∀ s ∈ log, s ≤ now) (nonneg : ∀ s ∈ scores key, 0 ≤ s)
    (known : members key ⊆ used) : Tracks window now (pexpire now window key) used log where
  visible t later := by
    rw [scores_live_pexpire]
    by_cases alive : t < now + window
    · rw [if_pos alive]
      exact held t later
    · -- The key is gone, and so is every time of the log.
      have left : inWindow window t log = [] := inWindow_eq_nil fun s member => by
        have := past s member
        omega
      rw [if_neg alive, left]
      rfl
  past := past
  nonneg := by rwa [scores_pexpire]
  known := by rwa [members_pexpire]

/-- The key as the script counts it. -/
def trimmed (window now : ℤ) (key : Option SortedSetKey) : Option SortedSetKey :=
  zremrangebyscore 0 (now - window) (live now key)

section Step

variable {seconds : ℚ} {earlier : ℤ} {key : Option SortedSetKey} {used : List String}
  {log : List ℤ} {h : Hit}

/-- What is counted is the part of the log in the window. -/
theorem Tracks.trim {window now : ℤ} (tracks : Tracks window earlier key used log)
    (ordered : earlier ≤ now) :
    scores (trimmed window now key) = inWindow window now log ∧
      (∀ s ∈ scores (trimmed window now key), 0 ≤ s) ∧
      members (trimmed window now key) ⊆ used := by
  have positive : ∀ s ∈ scores (live now key), 0 ≤ s := fun s member =>
    tracks.nonneg s (scores_live_subset _ _ member)
  have active : scores (trimmed window now key) = inWindow window now log := by
    rw [← tracks.visible now ordered]
    exact scores_trimmed positive
  refine ⟨active, ?_, ?_⟩
  · rw [active, ← tracks.visible now ordered]
    exact fun s member => positive s (inWindow_subset _ _ _ member)
  · intro m member
    exact tracks.known (members_live_subset _ _ (members_zremrangebyscore_subset _ _ _ member))

/-- With room in the window, a hit is written down. -/
theorem hitStep_of_room {times : ℕ} {active : List ℤ}
    (counted : scores (trimmed (windowMs seconds) h.now key) = active)
    (room : active.length < times) :
    hitStep times seconds key h =
      (verdict times seconds h.now active, pexpire h.now (windowMs seconds)
        (zadd h.now h.member (trimmed (windowMs seconds) h.now key))) := by
  have now_eq : nowMs h.time = h.now := rfl
  have count : zcard (trimmed (windowMs seconds) h.now key) = active.length := by
    rw [zcard_eq_length, counted]
  rw [trimmed] at count
  simp only [hitStep, slidingWindow, now_eq, verdict, trimmed]
  rw [if_pos room, if_pos (by rw [count]; exact_mod_cast room), count]

/-- In a full window, a hit leaves the counted key with a new deadline. -/
theorem hitStep_of_full {times : ℕ} {active : List ℤ}
    (counted : scores (trimmed (windowMs seconds) h.now key) = active)
    (full : ¬ active.length < times) :
    hitStep times seconds key h =
      (verdict times seconds h.now active,
        pexpire h.now (windowMs seconds) (trimmed (windowMs seconds) h.now key)) := by
  have now_eq : nowMs h.time = h.now := rfl
  have count : zcard (trimmed (windowMs seconds) h.now key) = active.length := by
    rw [zcard_eq_length, counted]
  have oldest := zrangeFirst_score (trimmed (windowMs seconds) h.now key)
  rw [counted] at oldest
  rw [trimmed] at count oldest
  simp only [hitStep, slidingWindow, now_eq, verdict, trimmed]
  rw [if_neg full, if_neg (by rw [count]; exact_mod_cast full), count, ← oldest]
  cases zrangeFirst (zremrangebyscore 0 (h.now - windowMs seconds) (live h.now key)) with
  | none => rfl
  | some first => rfl

/-- **One hit answers as the gate does and keeps the key tracking the log.** -/
theorem tracks_step (times : ℕ) (tracks : Tracks (windowMs seconds) earlier key used log)
    (ordered : earlier ≤ h.now) (new : h.member ∉ used) :
    let result := verdict times seconds h.now (inWindow (windowMs seconds) h.now log)
    (hitStep times seconds key h).1 = result ∧
      Tracks (windowMs seconds) h.now (hitStep times seconds key h).2 (h.member :: used)
        (if result.allowed then log ++ [h.now] else log) := by
  intro result
  have now_nonneg : 0 ≤ h.now := Int.natCast_nonneg _
  obtain ⟨active, positive, known⟩ := tracks.trim ordered
  have held : ∀ t, h.now ≤ t →
      inWindow (windowMs seconds) t (scores (trimmed (windowMs seconds) h.now key)) =
        inWindow (windowMs seconds) t log := by
    intro t later
    rw [active, inWindow_inWindow later]
  have past : ∀ s ∈ log, s ≤ h.now := fun s member => (tracks.past s member).trans ordered
  by_cases room : (inWindow (windowMs seconds) h.now log).length < times
  · have allowed : result.allowed = true := (verdict_allowed_iff ..).mpr room
    have fresh : h.member ∉ members (trimmed (windowMs seconds) h.now key) := fun member =>
      new (known member)
    rw [hitStep_of_room active room, allowed, if_pos rfl]
    refine ⟨rfl, .of_pexpire (fun t later => ?_) ?_ ?_ ?_⟩
    · rw [scores_zadd_of_notMem fresh, inWindow_append, inWindow_append, held t later]
    · intro s member
      rcases List.mem_append.mp member with old | added
      · exact past s old
      · exact (List.mem_singleton.mp added).le
    · rw [scores_zadd_of_notMem fresh]
      intro s member
      rcases List.mem_append.mp member with old | added
      · exact positive s old
      · rwa [List.mem_singleton.mp added]
    · exact List.Subset.trans (members_zadd_subset _ _ _) (List.cons_subset_cons _ known)
  · have refused : ¬ result.allowed = true := fun through =>
      room ((verdict_allowed_iff ..).mp through)
    rw [hitStep_of_full active room, if_neg refused]
    exact ⟨rfl, .of_pexpire held past positive
      (List.Subset.trans known (List.subset_cons_self ..))⟩

end Step

/-- **The limiter is a sliding-window gate.** -/
theorem hitLog_eq_record_of_tracks {times : ℕ} {seconds : ℚ} {earlier : ℤ}
    {key : Option SortedSetKey} {used : List String} {log : List ℤ} {hits : List Hit}
    (tracks : Tracks (windowMs seconds) earlier key used log)
    (ordered : (hits.map Hit.now).Pairwise (· ≤ ·)) (after : ∀ h ∈ hits, earlier ≤ h.now)
    (distinct : (hits.map Hit.member).Nodup) (new : ∀ h ∈ hits, h.member ∉ used) :
    hitLog times seconds key hits =
      record (windowMs seconds) Hit.now (verdict times seconds) RateLimitResult.allowed log
        hits := by
  induction hits generalizing earlier key used log with
  | nil => rfl
  | cons h hits ih =>
      rw [List.map_cons, List.pairwise_cons] at ordered
      rw [List.map_cons, List.nodup_cons] at distinct
      obtain ⟨result, next⟩ :=
        tracks_step times tracks (after h List.mem_cons_self) (new h List.mem_cons_self)
      have rest := ih next ordered.2 (fun later member => ordered.1 _ (List.mem_map_of_mem member))
        distinct.2 fun later member => by
          rw [List.mem_cons, not_or]
          exact ⟨fun same => distinct.1 (same ▸ List.mem_map_of_mem member),
            new later (List.mem_cons_of_mem _ member)⟩
      simp only [hitLog, record, rest, result]

theorem hitLog_eq_record (times : ℕ) (seconds : ℚ) (hits : List Hit)
    (ordered : (hits.map Hit.now).Pairwise (· ≤ ·)) (distinct : (hits.map Hit.member).Nodup) :
    hitLog times seconds none hits =
      record (windowMs seconds) Hit.now (verdict times seconds) RateLimitResult.allowed []
        hits := by
  cases hits with
  | nil => rfl
  | cons h hits =>
      refine hitLog_eq_record_of_tracks (tracks_none (windowMs seconds) h.now) ordered ?_ distinct
        fun _ _ => List.not_mem_nil
      intro later member
      rcases List.mem_cons.mp member with rfl | member
      · exact le_rfl
      · rw [List.map_cons, List.pairwise_cons] at ordered
        exact ordered.1 _ (List.mem_map_of_mem member)

/-- The server times of the allowed hits of a log. -/
abbrev allowedTimes (log : List (Hit × RateLimitResult)) : List ℤ :=
  admitted Hit.now RateLimitResult.allowed log

/-- **The sliding window is exact.** On one key, with the server's clock not going
back and distinct members:

* a hit is allowed exactly when fewer than `times` earlier allowed hits lie
  strictly within the window before it;
* a half-open interval of the window's length contains at most `times` allowed
  hits;
* without any of the denied hits, the others have the same results. -/
theorem sliding_window_exact (times : ℕ) (seconds : ℚ) (hits : List Hit)
    (ordered : (hits.map Hit.now).Pairwise (· ≤ ·)) (distinct : (hits.map Hit.member).Nodup) :
    (∀ past h result later,
      hitLog times seconds none hits = past ++ (h, result) :: later →
        (result.allowed = true ↔
          (allowedTimes past).countP (fun s => h.now - windowMs seconds < s) < times)) ∧
    (∀ a, (allowedTimes (hitLog times seconds none hits)).countP
        (fun s => decide (a ≤ s ∧ s < a + windowMs seconds)) ≤ times ∧
      (allowedTimes (hitLog times seconds none hits)).countP
        (fun s => decide (a < s ∧ s ≤ a + windowMs seconds)) ≤ times) ∧
    (∀ kept : List (Hit × RateLimitResult), kept.Sublist (hitLog times seconds none hits) →
      (kept.filter fun entry => entry.2.allowed) =
        (hitLog times seconds none hits).filter (fun entry => entry.2.allowed) →
      hitLog times seconds none (kept.map Prod.fst) = kept) := by
  have gate := hitLog_eq_record times seconds hits ordered distinct
  refine ⟨fun past h result later split => ?_, fun a => ?_, fun kept sublist complete => ?_⟩
  · rw [gate] at split
    rw [record_split _ _ _ _ split, verdict_allowed_iff, List.nil_append, inWindow,
      ← List.countP_eq_length_filter]
  · rw [gate]
    exact ⟨admitted_Ico_le (verdict_allowed_iff times seconds) hits a,
      admitted_Ioc_le (verdict_allowed_iff times seconds) hits a⟩
  · have hits_kept : (kept.map Prod.fst).Sublist hits := by
      have below := sublist.map Prod.fst
      rwa [gate, record_map_fst] at below
    rw [hitLog_eq_record times seconds _ (ordered.sublist (hits_kept.map Hit.now))
      (distinct.sublist (hits_kept.map Hit.member))]
    rw [gate] at sublist complete
    exact record_drop_refused _ _ _ _ sublist complete

/-- Three hits within a second. -/
def burst : List Hit := [⟨(100, 0), "a"⟩, ⟨(100, 400000), "b"⟩, ⟨(100, 999000), "c"⟩]

theorem burst_bounded :
    (allowedTimes (hitLog 2 1 none burst)).countP
      (fun s => decide (100000 ≤ s ∧ s < 100000 + windowMs 1)) ≤ 2 :=
  ((sliding_window_exact 2 1 burst (by decide) (by decide)).2.1 100000).1

/-- The third hit is denied, and would be told to come back in a millisecond. -/
example : (hitLog 2 1 none burst).map (fun entry => (entry.2.allowed, entry.2.remaining)) =
    [(true, 1), (true, 0), (false, 0)] := by decide +kernel

/-! ## The reported reset -/

/-- What a denied hit is told, from the oldest allowed hit in its window. -/
theorem verdict_reset {times : ℕ} {seconds : ℚ} {now oldest : ℤ} {active : List ℤ}
    (refused : ¬ (verdict times seconds now active).allowed = true)
    (least : active.min? = some oldest) (recent : now - windowMs seconds < oldest) :
    (verdict times seconds now active).resetAfterSeconds =
      ((oldest + windowMs seconds - now : ℤ) : ℚ) / 1000 := by
  rw [verdict_allowed_iff] at refused
  have positive : (0 : ℚ) < ((oldest + windowMs seconds - now : ℤ) : ℚ) / 1000 := by
    have : (0 : ℚ) < ((oldest + windowMs seconds - now : ℤ) : ℚ) := by
      exact_mod_cast (by omega : 0 < oldest + windowMs seconds - now)
    positivity
  rw [verdict, if_neg refused, least]
  exact max_eq_left positive.le

/-- **The reported reset is exact.** On one key, with the server's clock not going back and
distinct members, a denied hit at `t` is told to wait a number `r` of milliseconds that is
positive and no more than the window, every hit before `t + r` is denied, and the first hit
from then on is allowed. -/
theorem sliding_reset_exact (times : ℕ) (seconds : ℚ) (hits : List Hit)
    (ordered : (hits.map Hit.now).Pairwise (· ≤ ·)) (distinct : (hits.map Hit.member).Nodup)
    (some_ : 1 ≤ times) (past later : List (Hit × RateLimitResult)) (h : Hit)
    (result : RateLimitResult)
    (split : hitLog times seconds none hits = past ++ (h, result) :: later)
    (denied : result.allowed = false) :
    ∃ r : ℤ, result.resetAfterSeconds = (r : ℚ) / 1000 ∧ 0 < r ∧ r ≤ windowMs seconds ∧
      (∀ entry ∈ later, entry.1.now < h.now + r → entry.2.allowed = false) ∧
      ∀ middle entry rest, later = middle ++ entry :: rest →
        (∀ earlier ∈ middle, earlier.1.now < h.now + r) → h.now + r ≤ entry.1.now →
          entry.2.allowed = true := by
  have refused : ¬ result.allowed = true := Bool.eq_false_iff.mp denied
  rw [hitLog_eq_record times seconds hits ordered distinct] at split
  obtain ⟨oldest, least, recent, begun, closed, opens⟩ := refused_until_oldest_leaves
    (verdict_allowed_iff times seconds) some_ ordered split refused
  have answered := record_split _ _ _ _ split
  rw [List.nil_append] at answered
  have leaves : h.now + (oldest + windowMs seconds - h.now) = oldest + windowMs seconds := by omega
  refine ⟨oldest + windowMs seconds - h.now, ?_, by omega, by omega, ?_, ?_⟩
  · rw [answered] at refused ⊢
    exact verdict_reset refused least recent
  · rw [leaves]
    exact fun entry member early => Bool.eq_false_iff.mpr (closed entry member early)
  · rw [leaves]
    exact opens

/-- Two hits are allowed, and two more are denied until the first is a second old. -/
def waiting : List Hit :=
  burst ++ [⟨(100, 999500), "d"⟩, ⟨(101, 0), "e"⟩]

theorem waiting_reset : ∃ r : ℤ, (1 : ℚ) / 1000 = (r : ℚ) / 1000 ∧ 0 < r ∧ r ≤ windowMs 1 := by
  have split : hitLog 2 1 none waiting =
      (hitLog 2 1 none waiting).take 2 ++
        (⟨(100, 999000), "c"⟩, ⟨false, 0, 1 / 1000, 2, false⟩) ::
          (hitLog 2 1 none waiting).drop 3 := by decide +kernel
  obtain ⟨r, told, positive, least, _⟩ := sliding_reset_exact 2 1 waiting (by decide) (by decide)
    (by decide) _ _ _ _ split rfl
  exact ⟨r, told, positive, least⟩

end PyCommon.Cache
