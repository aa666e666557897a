import Mathlib.Data.Int.Notation
import Mathlib.Data.List.Basic
import Mathlib.Data.List.MinMax

/-!
# A Redis sorted set with a time to live

The commands the sliding-window script issues against its one key, as functions
of what the key holds. A key that is absent holds nothing, a sorted set that
becomes empty is deleted, and a key whose deadline has passed is absent from then
on (`live`). Times are server milliseconds.

Of a sorted set the script only uses the scores, so each command has one lemma
about the list of scores.
-/

set_option autoImplicit false

namespace PyCommon.Cache

structure ScoredMember where
  member : String
  score : ℤ
  deriving DecidableEq

/-- A key holding a sorted set, with its `PEXPIRE` deadline if it has one. -/
structure SortedSetKey where
  entries : List ScoredMember
  expireAt : Option ℤ
  deriving DecidableEq

/-- The key as a command executed at `now` finds it. -/
def live (now : ℤ) (key : Option SortedSetKey) : Option SortedSetKey :=
  key.filter fun held => held.expireAt.all fun deadline => now < deadline

/-- `ZREMRANGEBYSCORE key lo hi`, both ends included. -/
def zremrangebyscore (lo hi : ℤ) (key : Option SortedSetKey) : Option SortedSetKey :=
  key.bind fun held =>
    let entries := held.entries.filter fun entry => ¬ (lo ≤ entry.score ∧ entry.score ≤ hi)
    if entries = [] then none else some { held with entries }

/-- `ZCARD key`. -/
def zcard (key : Option SortedSetKey) : ℕ := (key.elim [] SortedSetKey.entries).length

/-- `ZADD key score member`: a member already present has its score replaced. -/
def zadd (score : ℤ) (member : String) (key : Option SortedSetKey) : Option SortedSetKey :=
  match key with
  | none => some ⟨[⟨member, score⟩], none⟩
  | some held =>
      let others := held.entries.filter fun entry => entry.member ≠ member
      some { held with entries := others ++ [⟨member, score⟩] }

/-- The entry that comes first by score, and by member among equal scores. -/
def firstEntry : List ScoredMember → Option ScoredMember
  | [] => none
  | entry :: rest =>
      match firstEntry rest with
      | none => some entry
      | some other =>
          if entry.score < other.score ∨ entry.score = other.score ∧ entry.member ≤ other.member
          then some entry else some other

/-- `ZRANGE key 0 0 WITHSCORES`. -/
def zrangeFirst (key : Option SortedSetKey) : Option ScoredMember :=
  firstEntry (key.elim [] SortedSetKey.entries)

/-- `PEXPIRE key ms`, which does nothing to an absent key. -/
def pexpire (now ms : ℤ) (key : Option SortedSetKey) : Option SortedSetKey :=
  key.map fun held => { held with expireAt := some (now + ms) }

/-! ## Scores and members -/

def scores (key : Option SortedSetKey) : List ℤ :=
  (key.elim [] SortedSetKey.entries).map ScoredMember.score

def members (key : Option SortedSetKey) : List String :=
  (key.elim [] SortedSetKey.entries).map ScoredMember.member

@[simp] theorem scores_none : scores none = [] := rfl

@[simp] theorem scores_pexpire (now ms : ℤ) (key : Option SortedSetKey) :
    scores (pexpire now ms key) = scores key := by
  cases key <;> rfl

@[simp] theorem members_pexpire (now ms : ℤ) (key : Option SortedSetKey) :
    members (pexpire now ms key) = members key := by
  cases key <;> rfl

theorem zcard_eq_length (key : Option SortedSetKey) : zcard key = (scores key).length := by
  simp [zcard, scores]

theorem scores_zremrangebyscore (lo hi : ℤ) (key : Option SortedSetKey) :
    scores (zremrangebyscore lo hi key) =
      (scores key).filter fun score => ¬ (lo ≤ score ∧ score ≤ hi) := by
  cases key with
  | none => rfl
  | some held =>
      simp only [zremrangebyscore, Option.bind_some, scores, Option.elim_some, List.filter_map]
      split
      · rename_i emptied
        exact (congrArg (List.map ScoredMember.score) emptied).symm
      · rfl

/-- Removing entries adds no member. -/
theorem members_zremrangebyscore_subset (lo hi : ℤ) (key : Option SortedSetKey) :
    members (zremrangebyscore lo hi key) ⊆ members key := by
  cases key with
  | none => exact List.Subset.refl _
  | some held =>
      simp only [zremrangebyscore, Option.bind_some, members]
      split
      · exact List.nil_subset _
      · exact List.map_subset _ (List.filter_subset_self _)

/-- A new member is added at the end and replaces nothing. -/
theorem scores_zadd_of_notMem {score : ℤ} {member : String} {key : Option SortedSetKey}
    (new : member ∉ members key) : scores (zadd score member key) = scores key ++ [score] := by
  cases key with
  | none => rfl
  | some held =>
      have others : held.entries.filter (fun entry => entry.member ≠ member) = held.entries := by
        rw [List.filter_eq_self]
        intro entry inside
        simp only [ne_eq, decide_not, Bool.not_eq_true', decide_eq_false_iff_not]
        rintro rfl
        exact new (List.mem_map_of_mem inside)
      simp only [zadd, scores, Option.elim_some, others, List.map_append, List.map_cons,
        List.map_nil]

theorem members_zadd_subset (score : ℤ) (member : String) (key : Option SortedSetKey) :
    members (zadd score member key) ⊆ member :: members key := by
  cases key with
  | none => exact List.Subset.refl _
  | some held =>
      intro other inside
      simp only [zadd, members, Option.elim_some, List.map_append, List.mem_append,
        List.mem_map, List.mem_filter] at inside
      rcases inside with ⟨entry, ⟨held, _⟩, rfl⟩ | ⟨entry, added, rfl⟩
      · exact List.mem_cons_of_mem _ (List.mem_map_of_mem held)
      · rw [List.mem_singleton.mp added]
        exact List.mem_cons_self

/-- A key that is not live is gone. -/
theorem live_eq_self_or_none (now : ℤ) (key : Option SortedSetKey) :
    live now key = key ∨ live now key = none := by
  unfold live
  cases key with
  | none => exact .inl rfl
  | some held =>
      rw [Option.filter_some]
      split
      · exact .inl rfl
      · exact .inr rfl

theorem members_live_subset (now : ℤ) (key : Option SortedSetKey) :
    members (live now key) ⊆ members key := by
  rcases live_eq_self_or_none now key with same | gone
  · rw [same]
    exact List.Subset.refl _
  · rw [gone]
    exact List.nil_subset _

theorem scores_live_subset (now : ℤ) (key : Option SortedSetKey) :
    scores (live now key) ⊆ scores key := by
  rcases live_eq_self_or_none now key with same | gone
  · rw [same]
    exact List.Subset.refl _
  · rw [gone]
    exact List.nil_subset _

/-- A key given a deadline is there, with all it held, exactly until then. -/
theorem scores_live_pexpire (now set ms : ℤ) (key : Option SortedSetKey) :
    scores (live now (pexpire set ms key)) = if now < set + ms then scores key else [] := by
  cases key with
  | none => simp [live, pexpire]
  | some held =>
      simp only [live, pexpire, Option.map_some, Option.filter_some, Option.all_some,
        decide_eq_true_eq]
      split <;> rfl

/-- The score of the first entry is the least score. -/
theorem zrangeFirst_score (key : Option SortedSetKey) :
    (zrangeFirst key).map ScoredMember.score = (scores key).min? := by
  have least : ∀ entries : List ScoredMember,
      (firstEntry entries).map ScoredMember.score = (entries.map ScoredMember.score).min? := by
    intro entries
    induction entries with
    | nil => rfl
    | cons entry rest ih =>
        rw [List.map_cons, List.min?_cons, ← ih, firstEntry]
        cases firstEntry rest with
        | none => rfl
        | some other =>
            simp only [Option.map_some, Option.elim_some]
            split
            · rename_i first
              have : entry.score ≤ other.score := by omega
              simp [min_eq_left this]
            · rename_i first
              have : other.score ≤ entry.score := by omega
              simp [min_eq_right this]
  exact least _

end PyCommon.Cache
