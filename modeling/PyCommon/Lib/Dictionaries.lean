import Mathlib.Data.List.Induction
import Mathlib.Data.List.Nodup

/-!
# Dictionaries that keep the order of insertion

A dictionary as the list of its items. Assigning to a key that is there replaces the value where
it stands; a new key goes to the end; a key that is removed and assigned again is a new one.

What a dictionary holds after a history of writes is settled for each key by the last write to
that key alone (`get_after`), and the keys stand in the order in which they came
(`keys_after`). As no key occurs twice, the two make up the items (`values_after`).
-/

set_option autoImplicit false

namespace Dictionaries

variable {Key Value : Type*} [DecidableEq Key]

/-! ## Operations -/

/-- `items[key] = value`. -/
def assign (key : Key) (value : Value) : List (Key × Value) → List (Key × Value)
  | [] => [(key, value)]
  | entry :: rest =>
      if entry.1 = key then (key, value) :: rest else entry :: assign key value rest

/-- `items.pop(key, None)`, as far as the items go. -/
def remove (key : Key) (items : List (Key × Value)) : List (Key × Value) :=
  items.filter fun entry => entry.1 ≠ key

/-- `items.get(key)`. -/
def get (key : Key) (items : List (Key × Value)) : Option Value :=
  (items.find? fun entry => entry.1 = key).map Prod.snd

/-- The keys, in order. -/
def keys (items : List (Key × Value)) : List Key := items.map Prod.fst

variable {key other : Key} {value : Value} {items : List (Key × Value)}

theorem get_cons (entry : Key × Value) :
    get key (entry :: items) = if entry.1 = key then some entry.2 else get key items := by
  rw [get, List.find?_cons]
  by_cases here : entry.1 = key
  · simp [here]
  · simp [here, get]

theorem get_assign : get other (assign key value items) =
    if key = other then some value else get other items := by
  induction items with
  | nil => exact get_cons _
  | cons entry rest ih =>
      rw [assign]
      split
      · rename_i same
        rw [get_cons, get_cons, same]
        split <;> rfl
      · rename_i different
        rw [get_cons, get_cons, ih]
        by_cases here : key = other
        · rw [if_pos here, if_neg (here ▸ different), if_pos here]
        · rw [if_neg here, if_neg here]

/-! A dictionary may also be read with `List.lookup`. -/

theorem lookup_eq_get [BEq Key] [LawfulBEq Key] : items.lookup key = get key items := by
  induction items with
  | nil => rfl
  | cons entry rest ih =>
      rw [List.lookup_cons, get_cons, ih]
      by_cases same : entry.1 = key
      · simp [same]
      · simp [same, beq_false_of_ne (Ne.symm same)]

theorem lookup_assign [BEq Key] [LawfulBEq Key] : (assign key value items).lookup other =
    if other = key then some value else items.lookup other := by
  rw [lookup_eq_get, lookup_eq_get, get_assign]
  exact if_congr eq_comm rfl rfl

theorem get_remove : get other (remove key items) =
    if key = other then none else get other items := by
  induction items with
  | nil => exact (ite_self _).symm
  | cons entry rest ih =>
      rw [remove, List.filter_cons]
      by_cases gone : entry.1 = key
      · rw [if_neg (by simpa using gone), get_cons, gone]
        refine ih.trans ?_
        split <;> rfl
      · rw [if_pos (by simpa using gone), get_cons, get_cons]
        have later : get other (rest.filter fun entry => entry.1 ≠ key) =
            if key = other then none else get other rest := ih
        rw [later]
        by_cases here : key = other
        · rw [if_pos here, if_neg (here ▸ gone), if_pos here]
        · rw [if_neg here, if_neg here]

theorem keys_assign : keys (assign key value items) =
    if key ∈ keys items then keys items else keys items ++ [key] := by
  induction items with
  | nil => rfl
  | cons entry rest ih =>
      rw [assign]
      split
      · rename_i same
        rw [if_pos (by simp [keys, same])]
        simp [keys, same]
      · rename_i different
        have head : key ∈ keys (entry :: rest) ↔ key ∈ keys rest :=
          List.mem_cons.trans (or_iff_right (Ne.symm different))
        have tail : keys (entry :: assign key value rest) =
            entry.1 :: if key ∈ keys rest then keys rest else keys rest ++ [key] :=
          congrArg (entry.1 :: ·) ih
        rw [tail]
        by_cases there : key ∈ keys rest
        · rw [if_pos there, if_pos (head.mpr there)]
          rfl
        · rw [if_neg there, if_neg (mt head.mp there)]
          rfl

theorem keys_remove : keys (remove key items) = (keys items).filter (· ≠ key) := by
  rw [keys, remove, keys, List.filter_map]
  rfl

theorem nodup_assign (nodup : (keys items).Nodup) : (keys (assign key value items)).Nodup := by
  rw [keys_assign]
  split
  · exact nodup
  · rename_i fresh
    exact nodup.append (List.nodup_singleton key) (List.disjoint_singleton.mpr fresh)

theorem nodup_remove (nodup : (keys items).Nodup) : (keys (remove key items)).Nodup := by
  rw [keys_remove]
  exact nodup.filter _

/-- Where no key occurs twice, the values are what `get` gives at the keys. -/
theorem map_get_keys (nodup : (keys items).Nodup) :
    (keys items).map (fun key => get key items) = items.map fun entry => some entry.2 := by
  induction items with
  | nil => rfl
  | cons entry rest ih =>
      rw [keys, List.map_cons, List.nodup_cons] at nodup
      rw [keys, List.map_cons, List.map_cons, List.map_cons, get_cons, if_pos rfl, ← ih nodup.2]
      refine congrArg (some entry.2 :: ·) (List.map_congr_left fun key member => ?_)
      refine (get_cons entry).trans (if_neg fun same => nodup.1 ?_)
      rw [same]
      exact member

/-! ## Histories -/

inductive Write (Key Value : Type*) where
  | assign (key : Key) (value : Value)
  | remove (key : Key)

def Write.apply (items : List (Key × Value)) : Write Key Value → List (Key × Value)
  | .assign key value => Dictionaries.assign key value items
  | .remove key => Dictionaries.remove key items

/-- The items after these writes. -/
def after (writes : List (Write Key Value)) : List (Key × Value) := writes.foldl Write.apply []

/-- What the last write to a key left there. -/
def lastWritten (key : Key) (writes : List (Write Key Value)) : Option Value :=
  writes.foldl (fun value write => match write with
    | .assign written new => if written = key then some new else value
    | .remove gone => if gone = key then none else value) none

/-- The keys in the order in which they came and have stayed since. -/
def arrivals (writes : List (Write Key Value)) : List Key :=
  writes.foldl (fun keys write => match write with
    | .assign key _ => if key ∈ keys then keys else keys ++ [key]
    | .remove key => keys.filter (· ≠ key)) []

variable {writes : List (Write Key Value)}

/-- **What is under a key is what the last write to it left there.** -/
theorem get_after : get key (after writes) = lastWritten key writes := by
  induction writes using List.reverseRecOn with
  | nil => rfl
  | append_singleton writes write ih =>
      rw [after, List.foldl_concat, lastWritten, List.foldl_concat]
      cases write with
      | assign written new => exact get_assign.trans (by rw [← after, ih]; rfl)
      | remove gone => exact get_remove.trans (by rw [← after, ih]; rfl)

/-- **The keys stand in the order in which they came.** -/
theorem keys_after : keys (after writes) = arrivals writes := by
  induction writes using List.reverseRecOn with
  | nil => rfl
  | append_singleton writes write ih =>
      rw [after, List.foldl_concat, arrivals, List.foldl_concat]
      cases write with
      | assign key value => exact keys_assign.trans (by rw [← after, ih]; rfl)
      | remove key => exact keys_remove.trans (by rw [← after, ih]; rfl)

theorem nodup_after : (keys (after writes)).Nodup := by
  induction writes using List.reverseRecOn with
  | nil => exact List.nodup_nil
  | append_singleton writes write ih =>
      rw [after, List.foldl_concat]
      cases write with
      | assign key value => exact nodup_assign ih
      | remove key => exact nodup_remove ih

/-- **The values in order**: at each key that is there, what the last write to it left. -/
theorem values_after : (after writes).map (fun entry => some entry.2) =
    (arrivals writes).map fun key => lastWritten key writes := by
  rw [← map_get_keys nodup_after, keys_after]
  exact List.map_congr_left fun key _ => get_after

end Dictionaries
