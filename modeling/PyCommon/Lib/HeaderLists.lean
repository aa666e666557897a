import Mathlib.Data.List.Nodup

/-!
# Lists of headers

A message carries its headers as a list of pairs in which a key may occur several times. Setting
a header (`put`) replaces the first pair with its key, drops the later ones, and appends a pair if
there was none.

After `put` the key has the one value that was set, and the pairs with other keys are the same
in the same order. Setting several headers with different keys gives each of them its one value,
whatever was there (`values_putAll`), and leaves the rest alone (`others_putAll`).
-/

set_option autoImplicit false

namespace HeaderLists

variable {Key Value : Type*} [DecidableEq Key]

/-- Set a header. -/
def put (key : Key) (value : Value) : List (Key × Value) → List (Key × Value)
  | [] => [(key, value)]
  | pair :: rest =>
      if pair.1 = key then (key, value) :: rest.filter fun other => other.1 ≠ key
      else pair :: put key value rest

/-- Set headers one after the other. -/
def putAll (pairs : List (Key × Value)) (headers : List (Key × Value)) : List (Key × Value) :=
  pairs.foldl (fun headers pair => put pair.1 pair.2 headers) headers

/-- The values of a header, in order. -/
def values (key : Key) (headers : List (Key × Value)) : List Value :=
  (headers.filter fun pair => pair.1 = key).map Prod.snd

/-- The pairs with none of these keys. -/
def others (keys : List Key) (headers : List (Key × Value)) : List (Key × Value) :=
  headers.filter fun pair => pair.1 ∉ keys

variable {key other : Key} {value : Value} {headers : List (Key × Value)}

theorem values_cons_of_ne {pair : Key × Value} (different : pair.1 ≠ key) :
    values key (pair :: headers) = values key headers := by
  rw [values, List.filter_cons_of_neg (by simpa using different), values]

theorem values_filter_ne (different : key ≠ other) :
    values key (headers.filter fun pair => pair.1 ≠ other) = values key headers := by
  rw [values, values, List.filter_filter]
  refine congrArg _ (List.filter_congr fun pair _ => ?_)
  by_cases same : pair.1 = key
  · simp [same, different]
  · simp [same]

/-- **After a header is set it has the one value that was set.** -/
theorem values_put : values key (put key value headers) = [value] := by
  induction headers with
  | nil => simp [put, values]
  | cons pair rest ih =>
      rw [put]
      split
      · rw [values, List.filter_cons_of_pos (by simp), List.filter_filter]
        simp
      · rename_i different
        rw [values_cons_of_ne different, ih]

/-- Setting a header leaves the values of the others alone. -/
theorem values_put_of_ne (different : key ≠ other) :
    values key (put other value headers) = values key headers := by
  induction headers with
  | nil => exact values_cons_of_ne different.symm
  | cons pair rest ih =>
      rw [put]
      split
      · rename_i same
        rw [values_cons_of_ne different.symm, values_filter_ne different,
          values_cons_of_ne (same ▸ different.symm)]
      · simp only [values, List.filter_cons] at ih ⊢
        split
        · rw [List.map_cons, List.map_cons, ih]
        · exact ih

/-- Setting a header keeps the pairs with other keys in their order. -/
theorem others_put {keys : List Key} (set : key ∈ keys) :
    others keys (put key value headers) = others keys headers := by
  induction headers with
  | nil => simp [put, others, set]
  | cons pair rest ih =>
      rw [put]
      split
      · rename_i same
        rw [others, others, List.filter_cons_of_neg (by simpa using set),
          List.filter_cons_of_neg (by simpa [same] using set), List.filter_filter]
        refine List.filter_congr fun pair _ => ?_
        by_cases here : pair.1 = key
        · simp [here, set]
        · simp [here]
      · simp only [others, List.filter_cons] at ih ⊢
        rw [ih]

/-! ## Several headers -/

variable {pairs : List (Key × Value)}

theorem putAll_cons (pair : Key × Value) :
    putAll (pair :: pairs) headers = putAll pairs (put pair.1 pair.2 headers) := rfl

theorem values_putAll_of_notMem (absent : key ∉ pairs.map Prod.fst) :
    values key (putAll pairs headers) = values key headers := by
  induction pairs generalizing headers with
  | nil => rfl
  | cons pair rest ih =>
      rw [List.map_cons, List.mem_cons, not_or] at absent
      rw [putAll_cons, ih absent.2, values_put_of_ne absent.1]

/-- **Each of several headers has the one value that was set.** -/
theorem values_putAll (nodup : (pairs.map Prod.fst).Nodup) {pair : Key × Value}
    (member : pair ∈ pairs) : values pair.1 (putAll pairs headers) = [pair.2] := by
  induction pairs generalizing headers with
  | nil => exact absurd member List.not_mem_nil
  | cons first rest ih =>
      rw [List.map_cons, List.nodup_cons] at nodup
      rcases List.mem_cons.mp member with rfl | later
      · rw [putAll_cons, values_putAll_of_notMem nodup.1, values_put]
      · exact ih nodup.2 later

/-- The pairs with other keys stay as they are. -/
theorem others_putAll {keys : List Key} (set : ∀ pair ∈ pairs, pair.1 ∈ keys) :
    others keys (putAll pairs headers) = others keys headers := by
  induction pairs generalizing headers with
  | nil => rfl
  | cons pair rest ih =>
      rw [putAll_cons, ih fun pair later => set pair (List.mem_cons_of_mem _ later),
        others_put (set pair List.mem_cons_self)]

end HeaderLists
