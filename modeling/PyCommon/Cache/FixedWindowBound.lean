import PyCommon.Cache.FixedWindow
import PyCommon.Lib.Windows

/-!
# The fixed-window bound

The window of `RedisRateLimiter` exists only as the time to live that its script sets when
the count is one. Under one rate the key holds the window that its hits are in, with its end
for a deadline (`keyOf`, `incrWithTtl_keyOf`). So what the script replies to a hit is the
how many-th hit of its window it is, and how much of the window is left (`countedLog_eq`).

Hits at given times fall into windows in one way only, whether they are allowed or denied.
So a window runs from its first hit for exactly its length, it has at most `times` allowed
hits, and a half-open interval of its length, which meets at most two windows, has at most
`2 * times` (`fixed_window_bound`).
-/

set_option autoImplicit false

namespace PyCommon.Cache

open FixedWindows

/-- A hit that reached Redis at `now`, with the script's reply. -/
structure CountedHit where
  now : ℤ
  count : ℤ
  ttlMs : ℤ
  deriving DecidableEq

/-- The hit that the time to live is set on. -/
def CountedHit.Opens (h : CountedHit) : Prop := h.count = 1

instance (h : CountedHit) : Decidable h.Opens := inferInstanceAs (Decidable (h.count = 1))

/-- What the limiter returns. -/
def CountedHit.result (h : CountedHit) (times : ℕ) (seconds : ℚ) : RateLimitResult :=
  counterResult times seconds h.count h.ttlMs

/-- Whichever instance makes the hit. -/
theorem hit_eq_result (limiter : RedisRateLimiter) (times : ℕ) (seconds : ℚ) (h : CountedHit) :
    limiter.hit times seconds (.ok (h.count, h.ttlMs)) = .ok (h.result times seconds) := rfl

/-- The hits on one key at the given times. -/
def countedLog (window : ℤ) : Option CounterKey → List ℤ → List CountedHit
  | _, [] => []
  | key, now :: later =>
      let (count, ttlMs, key) := incrWithTtl now window key
      ⟨now, count, ttlMs⟩ :: countedLog window (some key) later

/-! ## The key holds the running window -/

/-- The key while a window runs. -/
def keyOf (length : ℤ) (running : Option (Window ℤ)) : Option CounterKey :=
  running.map fun w => ⟨w.count, some (w.start + length)⟩

/-- The hit that a window has just taken. -/
def CountedHit.ofWindow (length : ℤ) (entry : ℤ × Window ℤ) : CountedHit :=
  ⟨entry.1, entry.2.count, entry.2.start + length - entry.1⟩

theorem liveCounter_some (now count deadline : ℤ) :
    liveCounter now (some ⟨count, some deadline⟩) =
      if now < deadline then some ⟨count, some deadline⟩ else none := by
  simp only [liveCounter, Option.filter_some, Option.all_some, decide_eq_true_eq]

theorem pttl_of_lt {now count deadline : ℤ} (alive : now < deadline) :
    pttl now ⟨count, some deadline⟩ = deadline - now := by
  rw [pttl, liveCounter_some, if_pos alive]
  rfl

/-- **One run of the script takes the hit into its window.** -/
theorem incrWithTtl_keyOf {length now : ℤ} {running : Option (Window ℤ)} (positive : 0 < length)
    (some_ : ∀ w ∈ running, 0 < w.count) :
    let w := take length now running
    incrWithTtl now length (keyOf length running) =
      (↑w.count, w.start + length - now, ⟨w.count, some (w.start + length)⟩) := by
  have opened : ∀ key, liveCounter now key = none → incrWithTtl now length key =
      (1, now + length - now, ⟨1, some (now + length)⟩) := by
    intro key gone
    have ttl : pttl now ⟨1, some (now + length)⟩ = now + length - now :=
      pttl_of_lt (lt_add_of_pos_right now positive)
    rw [incrWithTtl, gone]
    exact Prod.ext rfl (Prod.ext ttl rfl)
  intro w
  cases running with
  | none => exact opened none rfl
  | some r =>
      have found := liveCounter_some now r.count (r.start + length)
      by_cases within : now < r.start + length
      · have counted : ((r.count : ℤ) + 1 = 1) = False := by
          have := some_ r rfl
          exact eq_false (by omega)
        rw [if_pos within] at found
        simp only [incrWithTtl, keyOf, Option.map_some, found, incr, counted, if_false,
          pttl_of_lt within, w, take_of_lt within, Nat.cast_succ]
      · rw [if_neg within] at found
        simp only [w, take_of_le (not_lt.mp within)]
        exact opened _ found

/-- **The replies are what the times of the hits make of their windows.** -/
theorem countedLog_eq {length : ℤ} (positive : 0 < length) {running : Option (Window ℤ)}
    (some_ : ∀ w ∈ running, 0 < w.count) (hits : List ℤ) :
    countedLog length (keyOf length running) hits =
      (assign length id running hits).map (CountedHit.ofWindow length) := by
  induction hits generalizing running with
  | nil => rfl
  | cons now later ih =>
      have taken : ∀ w ∈ some (take length now running), 0 < w.count := by
        intro w same
        obtain rfl := Option.some.inj same
        exact count_take_pos _ _
      rw [countedLog, incrWithTtl_keyOf positive some_, assign, List.map_cons]
      exact congrArg _ (ih taken)

/-! ## The bound -/

/-- The times of the allowed hits. -/
def allowedAt (times : ℕ) (seconds : ℚ) (log : List CountedHit) : List ℤ :=
  (log.filter fun h => (h.result times seconds).allowed).map CountedHit.now

section Reading

variable {length : ℤ} {entries : List (ℤ × Window ℤ)}

/-- A stretch of the log, as a stretch of the windows. -/
theorem stretch_of_map {first : CountedHit} {past rest : List CountedHit}
    (split : entries.map (CountedHit.ofWindow length) = past ++ first :: rest) :
    ∃ past' first' rest', entries = past' ++ first' :: rest' ∧
      CountedHit.ofWindow length first' = first ∧
      rest'.map (CountedHit.ofWindow length) = rest := by
  obtain ⟨past', tail, rfl, _, same⟩ := List.map_eq_append_iff.mp split
  obtain ⟨first', rest', rfl, here, after⟩ := List.map_eq_cons_iff.mp same
  exact ⟨past', first', rest', rfl, here, after⟩

theorem opens_ofWindow (entry : ℤ × Window ℤ) :
    (CountedHit.ofWindow length entry).Opens ↔ entry.2.count = 1 :=
  Nat.cast_eq_one

theorem quiet_of_map {hits : List CountedHit}
    (same : entries.map (CountedHit.ofWindow length) = hits) (quiet : ∀ h ∈ hits, ¬ h.Opens) :
    ∀ entry ∈ entries, entry.2.count ≠ 1 := by
  rintro entry member first
  refine quiet (CountedHit.ofWindow length entry) ?_ ((opens_ofWindow entry).mpr first)
  rw [← same]
  exact List.mem_map_of_mem member

theorem allowed_ofWindow (times : ℕ) (seconds : ℚ) (entry : ℤ × Window ℤ) :
    ((CountedHit.ofWindow length entry).result times seconds).allowed =
      decide (entry.2.count ≤ times) := by
  simp only [CountedHit.ofWindow, CountedHit.result, counterResult, Nat.cast_le]

theorem length_allowedAt (times : ℕ) (seconds : ℚ) :
    (allowedAt times seconds (entries.map (CountedHit.ofWindow length))).length =
      entries.countP fun entry => decide (entry.2.count ≤ times) := by
  rw [allowedAt, List.length_map, ← List.countP_eq_length_filter, List.countP_map]
  exact List.countP_congr fun entry _ => by rw [Function.comp_apply, allowed_ofWindow]

theorem countP_allowedAt (times : ℕ) (seconds : ℚ) (inside : ℤ → Bool) :
    (allowedAt times seconds (entries.map (CountedHit.ofWindow length))).countP inside =
      entries.countP fun entry => decide (entry.2.count ≤ times) && inside entry.1 := by
  rw [allowedAt, List.countP_map, List.countP_filter, List.countP_map]
  refine List.countP_congr fun entry _ => ?_
  rw [Function.comp_apply, allowed_ofWindow, Bool.and_comm]
  rfl

end Reading

section Bound

variable {times : ℕ} {seconds : ℚ} {hits : List ℤ}

theorem countedLog_none (whole : 1 ≤ windowMs seconds) (hits : List ℤ) :
    countedLog (windowMs seconds) none hits =
      (assign (windowMs seconds) id none hits).map (CountedHit.ofWindow (windowMs seconds)) :=
  countedLog_eq whole (fun w held => absurd held (Option.not_mem_none w)) hits

theorem opens_of_mem_head (whole : 1 ≤ windowMs seconds) :
    ∀ h ∈ (countedLog (windowMs seconds) none hits).head?, h.Opens := by
  rw [countedLog_none whole]
  cases hits with
  | nil => exact fun h held => absurd held (Option.not_mem_none h)
  | cons now later =>
      rintro h held
      obtain rfl := Option.some.inj held
      exact (opens_ofWindow _).mpr rfl

/-- While no window opens, the next one to open is the first to come when the one that runs has
passed, and the others are told when that is. -/
theorem opens_iff_passed (whole : 1 ≤ windowMs seconds) {past middle later : List CountedHit}
    {first h : CountedHit}
    (split : countedLog (windowMs seconds) none hits = past ++ first :: (middle ++ h :: later))
    (opens : first.Opens) (quiet : ∀ e ∈ middle, ¬ e.Opens) :
    (h.Opens ↔ first.now + windowMs seconds ≤ h.now) ∧
      (¬ h.Opens → (h.result times seconds).resetAfterSeconds =
        ((first.now + windowMs seconds - h.now : ℤ) : ℚ) / 1000) := by
  rw [countedLog_none whole] at split
  obtain ⟨past', first', rest', windows, rfl, same⟩ := stretch_of_map split
  obtain ⟨middle', tail, rfl, same', after⟩ := List.map_eq_append_iff.mp same
  obtain ⟨h', later', rfl, rfl, _⟩ := List.map_eq_cons_iff.mp after
  have one := (opens_ofWindow first').mp opens
  have begun := start_eq_time_of_mem (fun w held => absurd held (Option.not_mem_none w))
    (windows ▸ List.mem_append_right _ List.mem_cons_self) one
  obtain ⟨reopens, running⟩ := opens_iff_of_quiet (by omega) (assign_after windows)
    (quiet_of_map same' quiet)
  rw [begun] at reopens running
  refine ⟨(opens_ofWindow h').trans reopens, fun goes => ?_⟩
  have counts : h'.2.count ≠ 1 := fun first => goes ((opens_ofWindow h').mpr first)
  have left : 0 < first'.1 + windowMs seconds - h'.1 := by
    have early := mt reopens.mpr counts
    simp only [id] at early
    omega
  simp only [CountedHit.result, CountedHit.ofWindow, counterResult, running counts, id,
    if_pos left]

/-- One window has at most `times` allowed hits. -/
theorem length_allowedAt_le (whole : 1 ≤ windowMs seconds) {past rest later : List CountedHit}
    {first : CountedHit}
    (split : countedLog (windowMs seconds) none hits = past ++ first :: (rest ++ later))
    (quiet : ∀ e ∈ rest, ¬ e.Opens) :
    (allowedAt times seconds (first :: rest)).length ≤ times := by
  rw [countedLog_none whole] at split
  obtain ⟨past', first', rest', windows, rfl, same⟩ := stretch_of_map split
  obtain ⟨rest, later', rfl, rfl, _⟩ := List.map_eq_append_iff.mp same
  rw [← List.map_cons, length_allowedAt]
  exact countP_le_of_quiet whole times windows (quiet_of_map rfl quiet)

/-- Times no further apart than the window are those of at most `2 * times` allowed hits. -/
theorem countP_allowedAt_le (ordered : hits.Pairwise (· ≤ ·)) (whole : 1 ≤ windowMs seconds)
    (inside : ℤ → Bool)
    (near : ∀ s t, inside s = true → inside t = true → t ≤ s + windowMs seconds) :
    (allowedAt times seconds (countedLog (windowMs seconds) none hits)).countP inside ≤
      2 * times := by
  have inOrder : (hits.map id).Pairwise (· ≤ ·) := by rwa [List.map_id]
  rw [countedLog_none whole, countP_allowedAt]
  exact countP_le_of_near whole times inOrder inside near

end Bound

/-- **The fixed-window bound.** On one key, under one rate and with the server's clock not
going back:

* the first hit opens a window, and after a hit that opens one, the next to open one is the
  first that comes the window's length later or more, whatever hits there are in between,
  which are told the time until then;
* of the hits from one that opens a window up to the next, at most `times` are allowed;
* a half-open interval of the window's length contains at most `2 * times` allowed hits. -/
theorem fixed_window_bound (times : ℕ) (seconds : ℚ) (hits : List ℤ)
    (ordered : hits.Pairwise (· ≤ ·)) (whole : 1 ≤ windowMs seconds) :
    (∀ h ∈ (countedLog (windowMs seconds) none hits).head?, h.Opens) ∧
    (∀ past first middle h later,
      countedLog (windowMs seconds) none hits = past ++ first :: (middle ++ h :: later) →
      first.Opens → (∀ e ∈ middle, ¬ e.Opens) →
        (h.Opens ↔ first.now + windowMs seconds ≤ h.now) ∧
        (¬ h.Opens → (h.result times seconds).resetAfterSeconds =
          ((first.now + windowMs seconds - h.now : ℤ) : ℚ) / 1000)) ∧
    (∀ past first rest later,
      countedLog (windowMs seconds) none hits = past ++ first :: (rest ++ later) →
      (∀ e ∈ rest, ¬ e.Opens) → (allowedAt times seconds (first :: rest)).length ≤ times) ∧
    ∀ a, (allowedAt times seconds (countedLog (windowMs seconds) none hits)).countP
        (fun t => decide (a ≤ t ∧ t < a + windowMs seconds)) ≤ 2 * times ∧
      (allowedAt times seconds (countedLog (windowMs seconds) none hits)).countP
        (fun t => decide (a < t ∧ t ≤ a + windowMs seconds)) ≤ 2 * times := by
  refine ⟨opens_of_mem_head whole, ?_, ?_, fun a => ⟨?_, ?_⟩⟩
  · intro past first middle h later split opens quiet
    exact opens_iff_passed whole split opens quiet
  · intro past first rest later split quiet
    exact length_allowedAt_le whole split quiet
  · refine countP_allowedAt_le ordered whole _ fun s t first second => ?_
    simp only [decide_eq_true_eq] at first second
    omega
  · refine countP_allowedAt_le ordered whole _ fun s t first second => ?_
    simp only [decide_eq_true_eq] at first second
    omega

/-- Two hits a second, around the end of a window. -/
theorem boundary_burst_bounded :
    (allowedAt 2 1 (countedLog (windowMs 1) none [0, 998, 999, 1000, 1001])).countP
      (fun t => decide (998 ≤ t ∧ t < 998 + windowMs 1)) ≤ 2 * 2 :=
  ((fixed_window_bound 2 1 [0, 998, 999, 1000, 1001] (by decide) (by decide +kernel)).2.2.2 998).1

end PyCommon.Cache
