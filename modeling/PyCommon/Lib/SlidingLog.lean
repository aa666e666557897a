import Mathlib.Algebra.Order.Group.Defs
import Mathlib.Algebra.Order.Sub.Basic
import Mathlib.Data.List.Count
import Mathlib.Data.List.Induction
import Mathlib.Data.List.MinMax

/-!
# Sliding-window logs

A gate sees events at given times and answers each of them from the times of the
events it has let through within a window of fixed length before it. Times are
taken in any linearly ordered commutative group.

`record` runs such a gate. Its answers are determined by the log of admitted
times (`record_split`). A gate that admits an event exactly when the window holds
fewer than `limit` admitted times admits at most `limit` events in every
half-open interval of the window's length (`admitted_Ico_le`, `admitted_Ioc_le`).
Refused events leave no trace: removing any of them from the input removes their
answers and changes no other (`record_drop_refused`).
-/

set_option autoImplicit false

namespace SlidingLog

variable {T Input Answer : Type*}

section Window

variable [AddCommGroup T] [LinearOrder T]

/-- The logged times strictly later than the window's length before `t`. -/
def inWindow (window t : T) (log : List T) : List T := log.filter fun s => t - window < s

theorem inWindow_append (window t : T) (first second : List T) :
    inWindow window t (first ++ second) = inWindow window t first ++ inWindow window t second :=
  List.filter_append ..

theorem inWindow_eq_nil {window t : T} {log : List T} (old : ∀ s ∈ log, s ≤ t - window) :
    inWindow window t log = [] := by
  rw [inWindow, List.filter_eq_nil_iff]
  intro s member
  simpa using old s member

/-- A time that has left the window does not come back: looking through an
earlier window first makes no difference. -/
theorem inWindow_inWindow [IsOrderedAddMonoid T] {window earlier later : T}
    (ordered : earlier ≤ later) (log : List T) :
    inWindow window later (inWindow window earlier log) = inWindow window later log := by
  rw [inWindow, inWindow, List.filter_filter, inWindow]
  refine List.filter_congr fun s _ => ?_
  have sooner : earlier - window ≤ later - window := sub_le_sub_right ordered window
  by_cases kept : later - window < s
  · simp [kept, sooner.trans_lt kept]
  · simp [kept]

variable [IsOrderedAddMonoid T] {window now t oldest : T} {log : List T}

/-- While the oldest time is in the window, all are. -/
theorem inWindow_of_lt (later : now ≤ t) (least : ∀ s ∈ inWindow window now log, oldest ≤ s)
    (stays : t < oldest + window) : inWindow window t log = inWindow window now log := by
  rw [← inWindow_inWindow later, inWindow, List.filter_eq_self]
  intro s member
  rw [decide_eq_true_eq]
  exact (sub_lt_iff_lt_add.mpr stays).trans_le (least s member)

/-- When the oldest time has left the window, there is room for one more. -/
theorem length_inWindow_lt (later : now ≤ t) (inside : oldest ∈ inWindow window now log)
    (left : oldest + window ≤ t) :
    (inWindow window t log).length < (inWindow window now log).length := by
  rw [← inWindow_inWindow later, inWindow, List.length_filter_lt_length_iff_exists]
  refine ⟨oldest, inside, ?_⟩
  rw [decide_eq_true_eq, not_lt]
  exact le_sub_iff_add_le.mpr left

end Window

/-! ## The admitted events of a record -/

section Admitted

variable (time : Input → T) (allowed : Answer → Bool)

/-- The times of the admitted events of a record. -/
def admitted (entries : List (Input × Answer)) : List T :=
  (entries.filter fun entry => allowed entry.2).map fun entry => time entry.1

theorem admitted_append (first second : List (Input × Answer)) :
    admitted time allowed (first ++ second) =
      admitted time allowed first ++ admitted time allowed second := by
  simp only [admitted, List.filter_append, List.map_append]

theorem admitted_singleton (x : Input) (verdict : Answer) :
    admitted time allowed [(x, verdict)] = if allowed verdict then [time x] else [] := by
  by_cases through : allowed verdict
  · simp [admitted, through]
  · simp [admitted, through]

theorem admitted_cons (x : Input) (verdict : Answer) (entries : List (Input × Answer)) :
    admitted time allowed ((x, verdict) :: entries) =
      (if allowed verdict then [time x] else []) ++ admitted time allowed entries := by
  rw [← admitted_singleton, ← admitted_append]
  rfl

end Admitted

/-! ## Running a gate -/

section Gate

variable [AddCommGroup T] [LinearOrder T]
variable (window : T) (time : Input → T) (answer : T → List T → Answer) (allowed : Answer → Bool)

/-- The answers to a list of events, each computed from the admitted times in
its window. -/
def record : List T → List Input → List (Input × Answer)
  | _, [] => []
  | log, x :: xs =>
      let verdict := answer (time x) (inWindow window (time x) log)
      (x, verdict) :: record (if allowed verdict then log ++ [time x] else log) xs

theorem record_append (log : List T) (xs ys : List Input) :
    record window time answer allowed log (xs ++ ys) =
      record window time answer allowed log xs ++
        record window time answer allowed
          (log ++ admitted time allowed (record window time answer allowed log xs)) ys := by
  induction xs generalizing log with
  | nil => simp [record, admitted]
  | cons x xs ih =>
      by_cases through : allowed (answer (time x) (inWindow window (time x) log))
      · simp [record, ih, admitted_cons, through]
      · simp [record, ih, admitted_cons, through]

theorem record_map_fst (log : List T) (xs : List Input) :
    (record window time answer allowed log xs).map Prod.fst = xs := by
  induction xs generalizing log with
  | nil => rfl
  | cons x xs ih => simp [record, ih]

/-- **Every answer is the answer to the admitted times before it.** -/
theorem record_split {log : List T} {xs : List Input} {past later : List (Input × Answer)}
    {x : Input} {verdict : Answer}
    (split : record window time answer allowed log xs = past ++ (x, verdict) :: later) :
    verdict = answer (time x) (inWindow window (time x) (log ++ admitted time allowed past)) := by
  induction past generalizing log xs with
  | nil =>
      cases xs with
      | nil => cases split
      | cons y ys =>
          simp only [record, List.nil_append, List.cons.injEq, Prod.mk.injEq] at split
          obtain ⟨⟨rfl, rfl⟩, _⟩ := split
          simp [admitted]
  | cons entry past ih =>
      cases xs with
      | nil => cases split
      | cons y ys =>
          simp only [record, List.cons_append, List.cons.injEq] at split
          obtain ⟨rfl, rest⟩ := split
          rw [ih rest, admitted_cons]
          split
          · rw [List.append_assoc]
          · rw [List.nil_append]

/-- **Refused events leave no trace.** Of a record, keep the admitted entries and
any of the refused ones: the events kept have that record. -/
theorem record_drop_refused {log : List T} {xs : List Input} {kept : List (Input × Answer)}
    (sublist : kept.Sublist (record window time answer allowed log xs))
    (complete : (kept.filter fun entry => allowed entry.2) =
      (record window time answer allowed log xs).filter fun entry => allowed entry.2) :
    record window time answer allowed log (kept.map Prod.fst) = kept := by
  induction xs generalizing log kept with
  | nil =>
      obtain rfl := List.sublist_nil.mp sublist
      rfl
  | cons x xs ih =>
      simp only [record] at sublist complete
      by_cases through : allowed (answer (time x) (inWindow window (time x) log))
      · simp only [through, if_true] at sublist complete
        cases sublist with
        | cons _ dropped =>
            -- Dropping an admitted entry leaves too few admitted entries.
            have fewer := (dropped.filter fun entry => allowed entry.2).length_le
            rw [complete] at fewer
            simp only [List.filter_cons, through, if_true, List.length_cons] at fewer
            omega
        | cons_cons _ rest =>
            simp only [List.filter_cons, through, if_true, List.cons.injEq, true_and] at complete
            simp only [List.map_cons, record, through, if_true, ih rest complete]
      · simp only [through, Bool.false_eq_true, if_false] at sublist complete
        cases sublist with
        | cons _ dropped =>
            refine ih dropped ?_
            simpa [List.filter_cons, through] using complete
        | cons_cons _ rest =>
            simp only [List.filter_cons, through, Bool.false_eq_true, if_false] at complete
            simp only [List.map_cons, record, through, Bool.false_eq_true, if_false,
              ih rest complete]

/-! ## Gates that count -/

variable {window time answer allowed}
variable {limit : ℕ}

theorem admitted_concat (xs : List Input) (x : Input) :
    admitted time allowed (record window time answer allowed [] (xs ++ [x])) =
      admitted time allowed (record window time answer allowed [] xs) ++
        if allowed (answer (time x) (inWindow window (time x)
          (admitted time allowed (record window time answer allowed [] xs))))
        then [time x] else [] := by
  rw [record_append, admitted_append, List.nil_append]
  exact congrArg _ (admitted_singleton time allowed x _)

/-- When every earlier admitted time that `inside` accepts is in the window of an
admitted event, at most `limit` admitted times are accepted. -/
theorem admitted_countP_le
    (counts : ∀ t active, allowed (answer t active) = true ↔ active.length < limit)
    (inside : T → Bool)
    (near : ∀ s t, inside s = true → inside t = true → t - window < s) (xs : List Input) :
    (admitted time allowed (record window time answer allowed [] xs)).countP inside ≤ limit := by
  induction xs using List.reverseRecOn with
  | nil => simp [record, admitted]
  | append_singleton xs x ih =>
      rw [admitted_concat]
      split
      · rename_i through
        rw [List.countP_append, List.countP_singleton]
        split
        · rename_i here
          have room := (counts _ _).mp through
          have fits : (admitted time allowed
              (record window time answer allowed [] xs)).countP inside ≤
                (inWindow window (time x) (admitted time allowed
                  (record window time answer allowed [] xs))).length := by
            rw [inWindow, ← List.countP_eq_length_filter]
            exact List.countP_mono_left fun s _ accepted => by
              simpa using near s (time x) accepted here
          omega
        · exact ih
      · simpa using ih

/-- **At most `limit` events are admitted in an interval closed on the left.** -/
theorem admitted_Ico_le [IsOrderedAddMonoid T]
    (counts : ∀ t active, allowed (answer t active) = true ↔ active.length < limit)
    (xs : List Input) (a : T) :
    (admitted time allowed (record window time answer allowed [] xs)).countP
      (fun s => decide (a ≤ s ∧ s < a + window)) ≤ limit := by
  refine admitted_countP_le counts _ (fun s t first second => ?_) xs
  simp only [decide_eq_true_eq] at first second
  exact (sub_lt_iff_lt_add.mpr second.2).trans_le first.1

/-- **At most `limit` events are admitted in an interval closed on the right.** -/
theorem admitted_Ioc_le [IsOrderedAddMonoid T]
    (counts : ∀ t active, allowed (answer t active) = true ↔ active.length < limit)
    (xs : List Input) (a : T) :
    (admitted time allowed (record window time answer allowed [] xs)).countP
      (fun s => decide (a < s ∧ s ≤ a + window)) ≤ limit := by
  refine admitted_countP_le counts _ (fun s t first second => ?_) xs
  simp only [decide_eq_true_eq] at first second
  exact (sub_le_iff_le_add.mpr second.2).trans_lt first.1

/-! ## When a refused event would have been admitted -/

theorem record_before {log : List T} {xs : List Input} {past later : List (Input × Answer)}
    (split : record window time answer allowed log xs = past ++ later) :
    record window time answer allowed log (past.map Prod.fst) = past := by
  induction past generalizing log xs with
  | nil => rfl
  | cons entry past ih =>
      cases xs with
      | nil => cases split
      | cons y ys =>
          simp only [record, List.cons_append, List.cons.injEq] at split
          obtain ⟨rfl, rest⟩ := split
          simp only [List.map_cons, record, ih rest]

theorem record_after {log : List T} {xs : List Input} {past later : List (Input × Answer)}
    (split : record window time answer allowed log xs = past ++ later) :
    record window time answer allowed (log ++ admitted time allowed past) (later.map Prod.fst) =
      later := by
  induction past generalizing log xs with
  | nil =>
      rw [List.nil_append] at split
      subst split
      simp only [admitted, List.filter_nil, List.map_nil, List.append_nil, record_map_fst]
  | cons entry past ih =>
      cases xs with
      | nil => cases split
      | cons y ys =>
          simp only [record, List.cons_append, List.cons.injEq] at split
          obtain ⟨rfl, rest⟩ := split
          have tail := ih rest
          rw [admitted_cons]
          split at tail
          · rename_i through
            rwa [if_pos through, ← List.append_assoc]
          · rename_i refused
            rwa [if_neg refused, List.nil_append]

/-- While the window stays full, every event is refused. -/
theorem refused_of_full
    (counts : ∀ t active, allowed (answer t active) = true ↔ active.length < limit)
    {log : List T} {now ends : T}
    (full : ∀ t, now ≤ t → t < ends → limit ≤ (inWindow window t log).length)
    {xs : List Input} (ordered : (xs.map time).Pairwise (· ≤ ·)) (after : ∀ x ∈ xs, now ≤ time x) :
    ∀ e ∈ record window time answer allowed log xs, time e.1 < ends → ¬ allowed e.2 = true := by
  induction xs with
  | nil => exact fun e member => absurd member List.not_mem_nil
  | cons x xs ih =>
      rw [List.map_cons, List.pairwise_cons] at ordered
      intro e member early
      have later : x = e.1 ∨ e.1 ∈ xs := by
        have inside := List.mem_map_of_mem (f := Prod.fst) member
        rw [record_map_fst] at inside
        exact (List.mem_cons.mp inside).imp_left Eq.symm
      have soon : time x < ends := by
        rcases later with same | inside
        · rwa [same]
        · exact (ordered.1 _ (List.mem_map_of_mem inside)).trans_lt early
      have refused : ¬ allowed (answer (time x) (inWindow window (time x) log)) = true :=
        fun through => absurd ((counts _ _).mp through)
          (not_lt.mpr (full (time x) (after x List.mem_cons_self) soon))
      rw [record, if_neg refused] at member
      rcases List.mem_cons.mp member with rfl | inside
      · exact refused
      · exact ih ordered.2 (fun y member => after y (List.mem_cons_of_mem x member)) e inside early

/-- What is admitted before an event is no later, and the events after it are no earlier. -/
theorem ordered_of_split {log : List T} {xs : List Input}
    (ordered : (xs.map time).Pairwise (· ≤ ·)) {past later : List (Input × Answer)} {x : Input}
    {verdict : Answer}
    (split : record window time answer allowed log xs = past ++ (x, verdict) :: later) :
    (∀ s ∈ admitted time allowed past, s ≤ time x) ∧
      (∀ y ∈ later.map Prod.fst, time x ≤ time y) ∧
      ((later.map Prod.fst).map time).Pairwise (· ≤ ·) := by
  have inputs : xs = past.map Prod.fst ++ x :: later.map Prod.fst := by
    have mapped := congrArg (List.map Prod.fst) split
    rwa [record_map_fst, List.map_append, List.map_cons] at mapped
  rw [inputs, List.map_append, List.map_cons, List.pairwise_append, List.pairwise_cons] at ordered
  obtain ⟨_, ⟨after, orderedLater⟩, before⟩ := ordered
  refine ⟨fun s member => ?_, fun y member => after _ (List.mem_map_of_mem member), orderedLater⟩
  obtain ⟨e, kept, rfl⟩ := List.mem_map.mp member
  exact before _ (List.mem_map_of_mem (List.mem_map_of_mem (List.mem_filter.mp kept).1)) _
    List.mem_cons_self

/-- No window holds more than `limit` admitted times. -/
theorem length_inWindow_le [IsOrderedAddMonoid T]
    (counts : ∀ t active, allowed (answer t active) = true ↔ active.length < limit)
    {xs : List Input} {past later : List (Input × Answer)}
    (split : record window time answer allowed [] xs = past ++ later) {t : T}
    (before : ∀ s ∈ admitted time allowed past, s ≤ t) :
    (inWindow window t (admitted time allowed past)).length ≤ limit := by
  have bound : (admitted time allowed (record window time answer allowed []
      (past.map Prod.fst))).countP
        (fun s => decide (t - window < s ∧ s ≤ t - window + window)) ≤ limit :=
    admitted_Ioc_le counts _ _
  rw [record_before split, sub_add_cancel] at bound
  rw [inWindow, ← List.countP_eq_length_filter]
  refine le_trans (List.countP_mono_left fun s member recent => ?_) bound
  exact decide_eq_true ⟨of_decide_eq_true recent, before s member⟩

/-- **The time at which a refused event would have been admitted.** An event that is refused
finds an oldest admitted time in its window. Every event before that time leaves the window is
refused, and the first event from then on is admitted. -/
theorem refused_until_oldest_leaves [IsOrderedAddMonoid T]
    (counts : ∀ t active, allowed (answer t active) = true ↔ active.length < limit)
    (positive : 0 < limit) {xs : List Input} (ordered : (xs.map time).Pairwise (· ≤ ·))
    {past later : List (Input × Answer)} {x : Input} {verdict : Answer}
    (split : record window time answer allowed [] xs = past ++ (x, verdict) :: later)
    (refused : ¬ allowed verdict = true) :
    ∃ oldest, (inWindow window (time x) (admitted time allowed past)).min? = some oldest ∧
      time x - window < oldest ∧ oldest ≤ time x ∧
      (∀ e ∈ later, time e.1 < oldest + window → ¬ allowed e.2 = true) ∧
      ∀ middle e rest, later = middle ++ e :: rest →
        (∀ m ∈ middle, time m.1 < oldest + window) → oldest + window ≤ time e.1 →
          allowed e.2 = true := by
  let log := admitted time allowed past
  obtain ⟨beforeNow, afterNow, orderedLater⟩ := ordered_of_split ordered split
  -- The window that the event finds holds exactly `limit` times.
  have full : limit ≤ (inWindow window (time x) log).length := by
    rw [record_split _ _ _ _ split, counts, not_lt] at refused
    exact refused
  have most : (inWindow window (time x) log).length ≤ limit :=
    length_inWindow_le counts split beforeNow
  have nonempty : inWindow window (time x) log ≠ [] := List.ne_nil_of_length_pos (by omega)
  obtain ⟨oldest, least⟩ := Option.ne_none_iff_exists'.mp (mt List.min?_eq_none_iff.mp nonempty)
  obtain ⟨inside, smallest⟩ := List.min?_eq_some_iff.mp least
  obtain ⟨logged, recent⟩ := List.mem_filter.mp inside
  have rest : record window time answer allowed log (later.map Prod.fst) = later := by
    have tail := record_after (split.trans (List.append_cons _ _ _))
    rwa [admitted_append, admitted_singleton, if_neg refused, List.append_nil] at tail
  have denied : ∀ e ∈ later, time e.1 < oldest + window → ¬ allowed e.2 = true := by
    have stays : ∀ t, time x ≤ t → t < oldest + window →
        limit ≤ (inWindow window t log).length := fun t late early => by
      rwa [inWindow_of_lt late smallest early]
    have every := refused_of_full counts stays orderedLater afterNow
    rwa [rest] at every
  refine ⟨oldest, least, of_decide_eq_true recent, beforeNow oldest logged, denied, ?_⟩
  intro middle e tail same early freed
  have quiet : admitted time allowed middle = [] := by
    rw [admitted, List.map_eq_nil_iff, List.filter_eq_nil_iff]
    intro m member
    have inLater : m ∈ later := by
      rw [same]
      exact List.mem_append_left _ member
    exact denied m inLater (early m member)
  have split' : record window time answer allowed log (later.map Prod.fst) =
      middle ++ (e.1, e.2) :: tail := rest.trans same
  have late : time x ≤ time e.1 := by
    refine afterNow e.1 (List.mem_map_of_mem ?_)
    rw [same]
    exact List.mem_append_right _ List.mem_cons_self
  rw [record_split _ _ _ _ split', counts, quiet, List.append_nil]
  exact (length_inWindow_lt late inside freed).trans_le most

end Gate

end SlidingLog
