import Mathlib.Algebra.Order.Group.Defs
import Mathlib.Algebra.Order.Monoid.Defs
import Mathlib.Data.List.Count
import Mathlib.Data.List.Nodup
import Mathlib.Data.List.Perm.Subperm

/-!
# Fixed windows

Events at given times fall into windows of a fixed length. A window starts with an event,
and takes every further event until its length has passed. The first event after that
starts the next one. So which window an event is in, and the how many-th of it, depends on
the times of the events alone (`assign`).

Events of one window follow each other, and a later window starts no sooner than the length
after an earlier one (`assign_pairwise`). A window therefore has at most `limit` events that
are among its first `limit`, and events that lie no further apart than the length come from
at most two windows (`countP_le_of_near`).
-/

set_option autoImplicit false

namespace FixedWindows

variable {T Input : Type*}

/-- A window: when it started, and how many events it has taken. -/
@[ext] structure Window (T : Type*) where
  start : T
  count : ℕ
  deriving DecidableEq

section Assign

variable [Add T] [LinearOrder T]

/-- The window that takes an event at `t`. -/
def take (length t : T) (running : Option (Window T)) : Window T :=
  match running with
  | none => ⟨t, 1⟩
  | some w => if t < w.start + length then ⟨w.start, w.count + 1⟩ else ⟨t, 1⟩

/-- The windows of a list of events, as each event leaves them. -/
def assign (length : T) (time : Input → T) :
    Option (Window T) → List Input → List (Input × Window T)
  | _, [] => []
  | running, x :: xs =>
      (x, take length (time x) running) ::
        assign length time (some (take length (time x) running)) xs

variable {length : T} {time : Input → T}

theorem take_of_lt {t : T} {w : Window T} (within : t < w.start + length) :
    take length t (some w) = ⟨w.start, w.count + 1⟩ := if_pos within

theorem take_of_le {t : T} {w : Window T} (passed : w.start + length ≤ t) :
    take length t (some w) = ⟨t, 1⟩ := if_neg (not_lt.mpr passed)

theorem count_take_pos (t : T) (running : Option (Window T)) :
    0 < (take length t running).count := by
  unfold take
  split
  · exact Nat.one_pos
  · split
    · exact Nat.succ_pos _
    · exact Nat.one_pos

theorem assign_map_fst (running : Option (Window T)) (xs : List Input) :
    (assign length time running xs).map Prod.fst = xs := by
  induction xs generalizing running with
  | nil => rfl
  | cons x xs ih => rw [assign, List.map_cons, ih]

theorem count_pos_of_mem {running : Option (Window T)} {xs : List Input}
    {entry : Input × Window T} (member : entry ∈ assign length time running xs) :
    0 < entry.2.count := by
  induction xs generalizing running with
  | nil => cases member
  | cons x xs ih =>
      rcases List.mem_cons.mp member with rfl | later
      · exact count_take_pos _ _
      · exact ih later

/-- What follows an entry is assigned from the window of the entry. -/
theorem assign_after {running : Option (Window T)} {xs : List Input} {x : Input} {w : Window T}
    {past later : List (Input × Window T)}
    (split : assign length time running xs = past ++ (x, w) :: later) :
    assign length time (some w) (later.map Prod.fst) = later := by
  induction past generalizing running xs with
  | nil =>
      cases xs with
      | nil => cases split
      | cons y ys =>
          simp only [assign, List.nil_append, List.cons.injEq, Prod.mk.injEq] at split
          obtain ⟨⟨rfl, rfl⟩, rfl⟩ := split
          rw [assign_map_fst]
  | cons entry past ih =>
      cases xs with
      | nil => cases split
      | cons y ys =>
          simp only [assign, List.cons_append, List.cons.injEq] at split
          exact ih split.2

/-- A window opens with the event that is its first. -/
theorem count_take_eq_one_iff {t : T} {w : Window T} (counted : 0 < w.count) :
    (take length t (some w)).count = 1 ↔ w.start + length ≤ t := by
  by_cases within : t < w.start + length
  · rw [take_of_lt within]
    exact ⟨fun first => absurd (Nat.succ.inj first) counted.ne',
      fun passed => absurd within (not_lt.mpr passed)⟩
  · rw [take_of_le (not_lt.mp within)]
    exact ⟨fun _ => not_lt.mp within, fun _ => rfl⟩

theorem start_take_of_ne_one {t : T} {w : Window T} (counted : 0 < w.count)
    (running : (take length t (some w)).count ≠ 1) : (take length t (some w)).start = w.start := by
  have within : t < w.start + length := by
    by_contra passed
    exact running ((count_take_eq_one_iff counted).mpr (not_lt.mp passed))
  rw [take_of_lt within]

theorem start_take_of_one {t : T} {running : Option (Window T)}
    (counted : ∀ w ∈ running, 0 < w.count) (first : (take length t running).count = 1) :
    (take length t running).start = t := by
  cases running with
  | none => rfl
  | some w =>
      have passed := (count_take_eq_one_iff (counted w rfl)).mp first
      rw [take_of_le passed]

/-- Of two events, the first comes earlier in the same window, or in an earlier window. -/
def Precedes (length : T) (w v : Window T) : Prop :=
  w.start = v.start ∧ w.count < v.count ∨ w.start + length ≤ v.start

theorem precedes_take {t : T} {w : Window T} :
    Precedes length w (take length t (some w)) := by
  by_cases within : t < w.start + length
  · rw [take_of_lt within]
    exact .inl ⟨rfl, Nat.lt_succ_self _⟩
  · rw [take_of_le (not_lt.mp within)]
    exact .inr (not_lt.mp within)

theorem start_eq_time_of_mem {running : Option (Window T)} {xs : List Input}
    {entry : Input × Window T} (counted : ∀ w ∈ running, 0 < w.count)
    (member : entry ∈ assign length time running xs) (first : entry.2.count = 1) :
    entry.2.start = time entry.1 := by
  induction xs generalizing running with
  | nil => cases member
  | cons x xs ih =>
      rcases List.mem_cons.mp member with rfl | later
      · exact start_take_of_one counted first
      · refine ih (fun w held => ?_) later
        obtain rfl := Option.some.inj held
        exact count_take_pos _ _

/-- While no event opens a window, the events are taken by the window that is running. -/
theorem opens_iff_of_quiet {w v : Window T} {xs : List Input} {x : Input}
    {middle later : List (Input × Window T)} (counted : 0 < w.count)
    (split : assign length time (some w) xs = middle ++ (x, v) :: later)
    (quiet : ∀ e ∈ middle, e.2.count ≠ 1) :
    (v.count = 1 ↔ w.start + length ≤ time x) ∧ (v.count ≠ 1 → v.start = w.start) := by
  induction middle generalizing w xs with
  | nil =>
      cases xs with
      | nil => cases split
      | cons y ys =>
          simp only [assign, List.nil_append, List.cons.injEq, Prod.mk.injEq] at split
          obtain ⟨⟨rfl, rfl⟩, _⟩ := split
          refine ⟨count_take_eq_one_iff counted, fun running => ?_⟩
          exact start_take_of_ne_one counted running
  | cons e middle ih =>
      cases xs with
      | nil => cases split
      | cons y ys =>
          simp only [assign, List.cons_append, List.cons.injEq] at split
          obtain ⟨rfl, rest⟩ := split
          have start := start_take_of_ne_one counted (quiet _ List.mem_cons_self)
          rw [← start]
          exact ih (count_take_pos _ _) rest fun f member => quiet f (List.mem_cons_of_mem _ member)

end Assign

/-! ## Starts and ordinals -/

section Order

variable [AddCommGroup T] [LinearOrder T] [IsOrderedAddMonoid T]
variable {length : T} {time : Input → T}

/-- The window that takes an event has not passed. -/
theorem lt_take (positive : 0 < length) (t : T) (running : Option (Window T)) :
    t < (take length t running).start + length := by
  have opened : t < t + length := lt_add_of_pos_right t positive
  cases running with
  | none => exact opened
  | some w =>
      by_cases within : t < w.start + length
      · rw [take_of_lt within]
        exact within
      · rw [take_of_le (not_lt.mp within)]
        exact opened

omit [IsOrderedAddMonoid T] in
theorem start_take_le {t : T} {running : Option (Window T)}
    (before : ∀ w ∈ running, w.start ≤ t) : (take length t running).start ≤ t := by
  cases running with
  | none => exact le_rfl
  | some w =>
      by_cases within : t < w.start + length
      · rw [take_of_lt within]
        exact before w rfl
      · rw [take_of_le (not_lt.mp within)]

theorem Precedes.trans (positive : 0 < length) {u v w : Window T} (first : Precedes length u v)
    (second : Precedes length v w) : Precedes length u w := by
  rcases first with ⟨start, fewer⟩ | sooner
  · rcases second with ⟨start', fewer'⟩ | sooner'
    · exact .inl ⟨start.trans start', fewer.trans fewer'⟩
    · exact .inr (by rwa [start])
  · rcases second with ⟨start', _⟩ | sooner'
    · exact .inr (by rwa [← start'])
    · exact .inr ((sooner.trans (le_add_of_nonneg_right positive.le)).trans sooner')

theorem precedes_of_mem (positive : 0 < length) {w : Window T} {xs : List Input}
    {entry : Input × Window T} (member : entry ∈ assign length time (some w) xs) :
    Precedes length w entry.2 := by
  induction xs generalizing w with
  | nil => cases member
  | cons x xs ih =>
      rcases List.mem_cons.mp member with rfl | later
      · exact precedes_take
      · exact precedes_take.trans positive (ih later)

theorem assign_pairwise (positive : 0 < length) (running : Option (Window T))
    (xs : List Input) :
    (assign length time running xs).Pairwise fun e f => Precedes length e.2 f.2 := by
  induction xs generalizing running with
  | nil => exact List.Pairwise.nil
  | cons x xs ih =>
      exact List.pairwise_cons.mpr ⟨fun entry later => precedes_of_mem positive later, ih _⟩

theorem within_of_mem (positive : 0 < length) {running : Option (Window T)} {xs : List Input}
    (ordered : (xs.map time).Pairwise (· ≤ ·))
    (before : ∀ w ∈ running, ∀ x ∈ xs, w.start ≤ time x)
    {entry : Input × Window T} (member : entry ∈ assign length time running xs) :
    entry.2.start ≤ time entry.1 ∧ time entry.1 < entry.2.start + length := by
  induction xs generalizing running with
  | nil => cases member
  | cons x xs ih =>
      rw [List.map_cons, List.pairwise_cons] at ordered
      have here : (take length (time x) running).start ≤ time x :=
        start_take_le fun w held => before w held x List.mem_cons_self
      rcases List.mem_cons.mp member with rfl | later
      · exact ⟨here, lt_take positive _ _⟩
      · refine ih ordered.2 (fun w held y inside => ?_) later
        obtain rfl := Option.some.inj held
        exact here.trans (ordered.1 _ (List.mem_map_of_mem inside))

/-! ## Bounds -/

/-- Events of one window that are among its first `limit`. -/
theorem length_le_of_one {limit : ℕ} {entries : List (Input × Window T)}
    (pairwise : entries.Pairwise fun e f => Precedes length e.2 f.2) (positive : 0 < length)
    (counted : ∀ e ∈ entries, 0 < e.2.count ∧ e.2.count ≤ limit)
    (one : entries.Pairwise fun e f => e.2.start = f.2.start) : entries.length ≤ limit := by
  have increasing : entries.Pairwise fun e f => e.2.count < f.2.count := by
    refine (pairwise.and one).imp fun {e f} both => ?_
    rcases both with ⟨⟨_, fewer⟩ | sooner, same⟩
    · exact fewer
    · rw [same] at sooner
      exact absurd sooner (not_le.mpr (lt_add_of_pos_right _ positive))
  have distinct : (entries.map fun e => e.2.count).Nodup :=
    List.pairwise_map.mpr (increasing.imp fun fewer => fewer.ne)
  have subset : (entries.map fun e => e.2.count) ⊆ List.range' 1 limit := by
    intro count inside
    obtain ⟨e, member, rfl⟩ := List.mem_map.mp inside
    obtain ⟨pos, le⟩ := counted e member
    exact List.mem_range'_1.mpr ⟨pos, by omega⟩
  have shorter := (distinct.subperm subset).length_le
  rwa [List.length_map, List.length_range'] at shorter

/-- Events no further apart than the length come from the first window and at most one
other. -/
theorem start_eq_of_near {e f g : Input × Window T}
    (begun : e.2.start + length ≤ f.2.start) (later : Precedes length f.2 g.2)
    (within : time e.1 < e.2.start + length) (started : g.2.start ≤ time g.1)
    (near : time g.1 ≤ time e.1 + length) : f.2.start = g.2.start := by
  rcases later with ⟨start, _⟩ | sooner
  · exact start
  · have far : time e.1 + length < time g.1 :=
      calc time e.1 + length < e.2.start + length + length := by gcongr
        _ ≤ f.2.start + length := by gcongr
        _ ≤ g.2.start := sooner
        _ ≤ time g.1 := started
    exact absurd near (not_le.mpr far)

/-- **Events no further apart than the length are at most `2 * limit`**, when only the first
`limit` of each window count. -/
theorem length_le_of_near {limit : ℕ} {entries : List (Input × Window T)}
    (pairwise : entries.Pairwise fun e f => Precedes length e.2 f.2) (positive : 0 < length)
    (counted : ∀ e ∈ entries, 0 < e.2.count ∧ e.2.count ≤ limit)
    (within : ∀ e ∈ entries, e.2.start ≤ time e.1 ∧ time e.1 < e.2.start + length)
    (near : ∀ e ∈ entries, ∀ f ∈ entries, time f.1 ≤ time e.1 + length) :
    entries.length ≤ 2 * limit := by
  cases entries with
  | nil => exact Nat.zero_le _
  | cons e rest =>
      let same : Input × Window T → Bool := fun f => decide (f.2.start = e.2.start)
      have first : ((e :: rest).filter same).length ≤ limit := by
        refine length_le_of_one (pairwise.filter _) positive
          (fun f member => counted f (List.mem_filter.mp member).1) ?_
        refine (pairwise.filter _).imp_of_mem fun {f g} member member' _ => ?_
        have start : f.2.start = e.2.start := of_decide_eq_true (List.mem_filter.mp member).2
        have start' : g.2.start = e.2.start := of_decide_eq_true (List.mem_filter.mp member').2
        exact start.trans start'.symm
      have second : ((e :: rest).filter fun f => !same f).length ≤ limit := by
        refine length_le_of_one (pairwise.filter _) positive
          (fun f member => counted f (List.mem_filter.mp member).1) ?_
        refine (pairwise.filter _).imp_of_mem fun {f g} member member' precedes => ?_
        obtain ⟨inside, other⟩ := List.mem_filter.mp member
        obtain ⟨inside', _⟩ := List.mem_filter.mp member'
        have apart : f.2.start ≠ e.2.start := by simpa [same] using other
        have begun : e.2.start + length ≤ f.2.start := by
          rcases List.mem_cons.mp inside with rfl | later
          · exact absurd rfl apart
          · rcases (List.pairwise_cons.mp pairwise).1 f later with ⟨start, _⟩ | sooner
            · exact absurd start.symm apart
            · exact sooner
        exact start_eq_of_near begun precedes (within e List.mem_cons_self).2 (within g inside').1
          (near e List.mem_cons_self g inside')
      have whole := List.length_eq_length_filter_add (l := e :: rest) same
      omega

/-- **A window takes at most `limit` events that are among its first `limit`.** -/
theorem countP_le_of_quiet (positive : 0 < length) (limit : ℕ) {xs : List Input}
    {first : Input × Window T} {past rest later : List (Input × Window T)}
    (split : assign length time none xs = past ++ first :: (rest ++ later))
    (quiet : ∀ e ∈ rest, e.2.count ≠ 1) :
    (first :: rest).countP (fun e => decide (e.2.count ≤ limit)) ≤ limit := by
  have counted : ∀ e ∈ first :: rest, 0 < e.2.count := by
    intro e member
    have entry : e ∈ assign length time none xs := by
      rw [split, ← List.cons_append]
      exact List.mem_append_right _ (List.mem_append_left _ member)
    exact count_pos_of_mem entry
  have start : ∀ e ∈ first :: rest, e.2.start = first.2.start := by
    intro e member
    rcases List.mem_cons.mp member with rfl | inside
    · rfl
    · obtain ⟨middle, after, rfl⟩ := List.append_of_mem inside
      rw [List.append_assoc, List.cons_append] at split
      exact (opens_iff_of_quiet (counted first List.mem_cons_self) (assign_after split)
        fun f member => quiet f (List.mem_append_left _ member)).2 (quiet e inside)
  have pairwise : (first :: rest).Pairwise fun e f => Precedes length e.2 f.2 := by
    have whole : (assign length time none xs).Pairwise fun e f => Precedes length e.2 f.2 :=
      assign_pairwise positive none xs
    rw [split, ← List.cons_append] at whole
    exact (List.pairwise_append.mp (List.pairwise_append.mp whole).2.1).1
  rw [List.countP_eq_length_filter]
  refine length_le_of_one (pairwise.filter _) positive (fun e member => ?_) ?_
  · obtain ⟨inside, among⟩ := List.mem_filter.mp member
    exact ⟨counted e inside, of_decide_eq_true among⟩
  · refine (pairwise.filter _).imp_of_mem fun {e f} member member' _ => ?_
    have begun := start e (List.mem_filter.mp member).1
    exact begun.trans (start f (List.mem_filter.mp member').1).symm

/-- **Of events no further apart than the length, at most `2 * limit` are among the first
`limit` of their windows.** -/
theorem countP_le_of_near (positive : 0 < length) (limit : ℕ) {xs : List Input}
    (ordered : (xs.map time).Pairwise (· ≤ ·)) (inside : T → Bool)
    (near : ∀ s t, inside s = true → inside t = true → t ≤ s + length) :
    (assign length time none xs).countP
      (fun e => decide (e.2.count ≤ limit) && inside (time e.1)) ≤ 2 * limit := by
  have kept : ∀ e ∈ (assign length time none xs).filter
      (fun e => decide (e.2.count ≤ limit) && inside (time e.1)),
      e ∈ assign length time none xs ∧ e.2.count ≤ limit ∧ inside (time e.1) = true := by
    intro e member
    obtain ⟨entry, both⟩ := List.mem_filter.mp member
    obtain ⟨among, here⟩ := Bool.and_eq_true_iff.mp both
    exact ⟨entry, of_decide_eq_true among, here⟩
  have within : ∀ e ∈ assign length time none xs,
      e.2.start ≤ time e.1 ∧ time e.1 < e.2.start + length := fun e entry =>
    within_of_mem positive ordered (fun w held => absurd held (by simp)) entry
  rw [List.countP_eq_length_filter]
  refine length_le_of_near ((assign_pairwise positive none xs).filter _) positive
    (fun e member => ?_) (fun e member => within e (kept e member).1) fun e member f member' => ?_
  · exact ⟨count_pos_of_mem (kept e member).1, (kept e member).2.1⟩
  · exact near _ _ (kept e member).2.2 (kept f member').2.2

end Order

end FixedWindows
