import Mathlib.Data.List.Basic
import Mathlib.Data.List.Dedup
import Mathlib.Data.List.Nodup
import Mathlib.Data.List.Perm.Subperm

/-!
# Recency maps

A map whose entries are kept in the order of their last use, oldest first, and of which
only a bounded number is kept: a key that is used moves to the end (`touch`), and the
oldest entries are dropped (`evict`).

What matters about a key is its value and the keys used since (`locate`). The latter
alone decide whether the key is still there: using another key adds it to them, and the
key is dropped when they have become as many as the bound (`locate_put_of_ne`). So of two
maps that see the same other keys, the one in which a key was used later keeps it longer
(`newer_put_of_ne`). And a key keeps its value as long as fewer distinct keys than the bound
have been used since (`stays_put_of_ne`).
-/

set_option autoImplicit false

namespace Recency

universe u v

variable {Key : Type u} {Value : Type v} [DecidableEq Key]

def keys (m : List (Key × Value)) : List Key := m.map Prod.fst

/-- The value of a key and the keys used since. -/
def locate (key : Key) : List (Key × Value) → Option (Value × List Key)
  | [] => none
  | entry :: rest => if entry.1 = key then some (entry.2, keys rest) else locate key rest

def get (key : Key) (m : List (Key × Value)) : Option Value := (locate key m).map Prod.fst

/-- Write a key and move it to the end. -/
def touch (key : Key) (value : Value) (m : List (Key × Value)) : List (Key × Value) :=
  m.filter (fun entry => entry.1 ≠ key) ++ [(key, value)]

/-- Drop the oldest entry while there are more than `bound`. -/
def evict (bound : ℕ) : List (Key × Value) → List (Key × Value)
  | [] => []
  | entry :: rest => if bound < rest.length + 1 then evict bound rest else entry :: rest

def put (bound : ℕ) (key : Key) (value : Value) (m : List (Key × Value)) : List (Key × Value) :=
  evict bound (touch key value m)

variable {key other : Key} {value : Value} {m : List (Key × Value)} {bound : ℕ}

/-! ## Keys -/

theorem nodup_touch (distinct : (keys m).Nodup) : (keys (touch key value m)).Nodup := by
  simp only [keys, touch, List.map_append, List.map_cons, List.map_nil]
  refine List.Nodup.append ?_ (List.nodup_singleton key) ?_
  · exact distinct.sublist (List.filter_sublist.map Prod.fst)
  · intro k inside same
    obtain ⟨entry, kept, rfl⟩ := List.mem_map.mp inside
    have apart : entry.1 ≠ key := by simpa using (List.mem_filter.mp kept).2
    exact apart (List.mem_singleton.mp same)

omit [DecidableEq Key] in
theorem evict_sublist (bound : ℕ) (m : List (Key × Value)) : (evict bound m).Sublist m := by
  induction m with
  | nil => exact List.Sublist.refl _
  | cons entry rest ih =>
      rw [evict]
      split
      · exact ih.cons entry
      · exact List.Sublist.refl _

theorem nodup_put (distinct : (keys m).Nodup) : (keys (put bound key value m)).Nodup :=
  (nodup_touch distinct).sublist ((evict_sublist bound _).map Prod.fst)

omit [DecidableEq Key] in
/-- The bound is kept. -/
theorem length_evict_le (bound : ℕ) (m : List (Key × Value)) : (evict bound m).length ≤ bound := by
  induction m with
  | nil => exact Nat.zero_le _
  | cons entry rest ih =>
      rw [evict]
      split
      · exact ih
      · rename_i fits
        rw [List.length_cons]
        omega

/-! ## Where a key is -/

theorem mem_keys_of_locate {found : Value × List Key} (here : locate key m = some found) :
    key ∈ keys m ∧ found.2.Sublist (keys m) ∧ found.2.length < m.length := by
  induction m with
  | nil => cases here
  | cons entry rest ih =>
      rw [locate] at here
      split at here
      · rename_i same
        obtain rfl := Option.some.inj here
        refine ⟨?_, List.sublist_cons_self _ _, ?_⟩
        · rw [← same]
          exact List.mem_cons_self
        · rw [keys, List.length_map, List.length_cons]
          exact Nat.lt_succ_self _
      · obtain ⟨inside, sub, short⟩ := ih here
        exact ⟨List.mem_cons_of_mem _ inside, sub.cons _, Nat.lt_succ_of_lt short⟩

theorem locate_eq_none_of_notMem (absent : key ∉ keys m) : locate key m = none := by
  cases here : locate key m with
  | none => rfl
  | some found => exact absurd (mem_keys_of_locate here).1 absent

theorem locate_append_of_notMem {m' : List (Key × Value)} (absent : key ∉ keys m) :
    locate key (m ++ m') = locate key m' := by
  induction m with
  | nil => rfl
  | cons entry rest ih =>
      have apart : entry.1 ≠ key := fun same => absent (by rw [← same]; exact List.mem_cons_self)
      rw [List.cons_append, locate, if_neg apart]
      exact ih fun inside => absent (List.mem_cons_of_mem _ inside)

/-- A key that is used is the latest. -/
theorem locate_touch_self : locate key (touch key value m) = some (value, []) := by
  rw [touch, locate_append_of_notMem, locate, if_pos rfl]
  · rfl
  · intro inside
    obtain ⟨entry, kept, same⟩ := List.mem_map.mp inside
    have apart : entry.1 ≠ key := by simpa using (List.mem_filter.mp kept).2
    exact apart same

/-- A key that is used has been used since every other one. -/
theorem locate_touch_of_ne (apart : other ≠ key) :
    locate key (touch other value m) =
      (locate key m).map fun found => (found.1, found.2.filter (· ≠ other) ++ [other]) := by
  rw [touch]
  induction m with
  | nil =>
      simp only [List.filter_nil, List.nil_append, locate, if_neg apart, Option.map_none]
  | cons entry rest ih =>
      by_cases moved : entry.1 = other
      · have skipped : entry.1 ≠ key := by rwa [moved]
        rw [List.filter_cons_of_neg (by simpa using moved), ih, locate, if_neg skipped]
      · rw [List.filter_cons_of_pos (by simpa using moved), List.cons_append, locate, locate]
        split
        · simp only [keys, List.map_append, List.map_cons, List.map_nil, Option.map_some,
            List.filter_map]
          rfl
        · exact ih

/-- A key is dropped when the keys used since are as many as the bound. -/
theorem locate_evict (distinct : (keys m).Nodup) :
    locate key (evict bound m) = (locate key m).filter fun found => found.2.length < bound := by
  induction m with
  | nil => rfl
  | cons entry rest ih =>
      obtain ⟨first, later⟩ := List.nodup_cons.mp distinct
      rw [evict]
      split
      · rename_i full
        rw [ih later, locate]
        split
        · rename_i same
          rw [locate_eq_none_of_notMem (by rw [← same]; exact first), Option.filter_some, keys,
            List.length_map, if_neg (by simp; omega)]
          rfl
        · rfl
      · rename_i fits
        cases here : locate key (entry :: rest) with
        | none => rfl
        | some found =>
            have short := (mem_keys_of_locate here).2.2
            rw [List.length_cons] at short
            rw [Option.filter_some, if_pos (by simp; omega)]

theorem locate_put_self (distinct : (keys m).Nodup) :
    locate key (put bound key value m) = if 0 < bound then some (value, []) else none := by
  rw [put, locate_evict (nodup_touch distinct), locate_touch_self, Option.filter_some]
  simp only [List.length_nil, decide_eq_true_eq]

theorem locate_put_of_ne (distinct : (keys m).Nodup) (apart : other ≠ key) :
    locate key (put bound other value m) =
      ((locate key m).map fun found => (found.1, found.2.filter (· ≠ other) ++ [other])).filter
        fun found => found.2.length < bound := by
  rw [put, locate_evict (nodup_touch distinct), locate_touch_of_ne apart]

/-! ## A key in two maps -/

variable {m' : List (Key × Value)} {value' : Value}

/-- The key is in the one map whenever it is in the other, with a related value, and has
been used no earlier there. -/
def Newer (related : Value → Value → Prop) (key : Key) (m m' : List (Key × Value)) : Prop :=
  ∀ found' ∈ locate key m', ∃ found ∈ locate key m,
    related found.1 found'.1 ∧ found.2 ⊆ found'.2

/-- Using another key in both maps keeps a key where it is, or drops it, in both. -/
theorem locate_put_eq (distinct : (keys m).Nodup) (distinct' : (keys m').Nodup)
    (apart : other ≠ key) (same : locate key m = locate key m') :
    locate key (put bound other value m) = locate key (put bound other value' m') := by
  rw [locate_put_of_ne distinct apart, locate_put_of_ne distinct' apart, same]

/-- Using another key in both maps keeps the one in which the key was used later ahead. -/
theorem newer_put_of_ne {related : Value → Value → Prop} (distinct : (keys m).Nodup)
    (distinct' : (keys m').Nodup) (apart : other ≠ key) (newer : Newer related key m m') :
    Newer related key (put bound other value m) (put bound other value' m') := by
  intro after' here'
  rw [locate_put_of_ne distinct' apart, Option.mem_def, Option.filter_eq_some_iff,
    Option.map_eq_some_iff] at here'
  obtain ⟨⟨found', place', rfl⟩, short'⟩ := here'
  obtain ⟨found, place, values, since⟩ := newer found' place'
  have subset : found.2.filter (· ≠ other) ++ [other] ⊆ found'.2.filter (· ≠ other) ++ [other] := by
    intro k inside
    rcases List.mem_append.mp inside with old | last
    · obtain ⟨member, kept⟩ := List.mem_filter.mp old
      exact List.mem_append_left _ (List.mem_filter.mpr ⟨since member, kept⟩)
    · exact List.mem_append_right _ last
  have once : (found.2.filter (· ≠ other) ++ [other]).Nodup := by
    have touched : locate key (touch other value m) =
        some (found.1, found.2.filter (· ≠ other) ++ [other]) := by
      rw [locate_touch_of_ne apart, place]
      rfl
    exact (nodup_touch distinct).sublist (mem_keys_of_locate touched).2.1
  have shorter := (once.subperm subset).length_le
  refine ⟨(found.1, found.2.filter (· ≠ other) ++ [other]), ?_, values, subset⟩
  rw [locate_put_of_ne distinct apart, Option.mem_def, Option.filter_eq_some_iff,
    Option.map_eq_some_iff]
  refine ⟨⟨found, place, rfl⟩, ?_⟩
  rw [decide_eq_true_eq] at short' ⊢
  exact Nat.lt_of_le_of_lt shorter short'

/-! ## How long a key stays -/

/-- The key has this value, and exactly these keys have been used since. -/
def Stays (key : Key) (value : Value) (since : List Key) (m : List (Key × Value)) : Prop :=
  ∃ found, locate key m = some found ∧ found.1 = value ∧ ∀ k, k ∈ found.2 ↔ k ∈ since

theorem Stays.get_eq {since : List Key} (stays : Stays key value since m) :
    get key m = some value := by
  obtain ⟨found, here, rfl, _⟩ := stays
  rw [get, here]
  rfl

theorem stays_put_self (distinct : (keys m).Nodup) (room : 0 < bound) :
    Stays key value [] (put bound key value m) :=
  ⟨(value, []), by rw [locate_put_self distinct, if_pos room], rfl, fun _ => Iff.rfl⟩

/-- A key stays while fewer distinct keys than the bound are used. -/
theorem stays_put_of_ne {since : List Key} (distinct : (keys m).Nodup) (apart : other ≠ key)
    (few : (since ++ [other]).dedup.length < bound) (stays : Stays key value since m) :
    Stays key value (since ++ [other]) (put bound other value' m) := by
  obtain ⟨found, here, rfl, same⟩ := stays
  have touched : locate key (touch other value' m) =
      some (found.1, found.2.filter (· ≠ other) ++ [other]) := by
    rw [locate_touch_of_ne apart, here]
    rfl
  have agree : ∀ k, k ∈ found.2.filter (· ≠ other) ++ [other] ↔ k ∈ since ++ [other] := by
    intro k
    simp only [List.mem_append, List.mem_filter, same k, List.mem_singleton, ne_eq,
      decide_eq_true_eq]
    by_cases last : k = other
    · simp only [last, or_true]
    · simp only [last, not_false_eq_true, and_true, or_false]
  have once : (found.2.filter (· ≠ other) ++ [other]).Nodup :=
    (nodup_touch distinct).sublist (mem_keys_of_locate touched).2.1
  have short : (found.2.filter (· ≠ other) ++ [other]).length < bound := by
    have subset : found.2.filter (· ≠ other) ++ [other] ⊆ (since ++ [other]).dedup :=
      fun k inside => List.mem_dedup.mpr ((agree k).mp inside)
    exact Nat.lt_of_le_of_lt (once.subperm subset).length_le few
  refine ⟨(found.1, found.2.filter (· ≠ other) ++ [other]), ?_, rfl, agree⟩
  rw [put, locate_evict (nodup_touch distinct), touched, Option.filter_some]
  exact if_pos (decide_eq_true short)

theorem locate_put_eq_none (distinct : (keys m).Nodup) (apart : other ≠ key)
    (absent : locate key m = none) : locate key (put bound other value m) = none := by
  rw [locate_put_of_ne distinct apart, absent]
  rfl

end Recency
