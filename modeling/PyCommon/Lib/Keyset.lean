import Mathlib.Data.List.Sort
import Mathlib.Order.Basic

/-!
# Keyset walks

A table is read in pages: a page holds the rows whose key is beyond the last key of the
page before, in the order of their keys and at most as many as the page's limit. One row
more is read, to know whether there is a next page. A walk follows the pages to the first
that has no next one, and the table may be another one at each page.

A page returns exactly the rows of its table between two keys (`mem_items_iff`): beyond
the key it starts from, and up to the one where the next page starts. So the keys of a
walk increase strictly (`walk_increasing`), the walk passes over no row that every table
has (`mem_walk_of_ended`), and over a table that stays as it is it ends, and has then
returned the rows of the table in order (`walk_ends`, `walk_eq_sorted`). The order on the
keys is any linear order: a descending walk is the walk over the dual order.
-/

set_option autoImplicit false

namespace Keyset

universe u v

variable {Row : Type u} {Key : Type v} [LinearOrder Key]

/-- What a page returns: its rows, and the key from which the next page starts. -/
structure Page (Row : Type u) (Key : Type v) where
  items : List Row
  next : Option Key

section Definitions

variable (key : Row → Key)

/-- The rows beyond a key. -/
def after : Option Key → List Row → List Row
  | none, rows => rows
  | some last, rows => rows.filter fun row => last < key row

def sorted (rows : List Row) : List Row :=
  rows.insertionSort fun first second => key first ≤ key second

/-- The page of at most `limit` rows after a key, told from one row more. -/
def page (seek : Option Key) (limit : ℕ) (rows : List Row) : Page Row Key :=
  let found := (sorted key (after key seek rows)).take (limit + 1)
  { items := found.take limit
    next := if limit < found.length then (found.take limit).getLast?.map key else none }

/-- The pages of a walk from a key: at each page a table and a limit. -/
def walk : List (List Row × ℕ) → Option Key → List (Page Row Key)
  | [], _ => []
  | (rows, limit) :: later, seek =>
      let answer := page key seek limit rows
      match answer.next with
      | none => [answer]
      | some last => answer :: walk later (some last)

end Definitions

/-- The rows of all pages, in the order in which they were returned. -/
def returned (pages : List (Page Row Key)) : List Row := pages.flatMap Page.items

/-- The last page has no next one. -/
def Ended (pages : List (Page Row Key)) : Prop := ∃ last ∈ pages.getLast?, last.next = none

/-- A row is beyond the key a page starts from. -/
def Beyond (key : Row → Key) (seek : Option Key) (row : Row) : Prop := ∀ last ∈ seek, last < key row

/-- A row is not beyond the key the next page starts from. -/
def UpTo (key : Row → Key) (next : Option Key) (row : Row) : Prop := ∀ last ∈ next, key row ≤ last

variable {key : Row → Key} {seek : Option Key} {limit : ℕ} {rows : List Row} {row : Row}

/-! ## One page -/

theorem mem_after : row ∈ after key seek rows ↔ row ∈ rows ∧ Beyond key seek row := by
  cases seek with
  | none =>
      refine ⟨fun member => ⟨member, ?_⟩, And.left⟩
      exact fun last given => (Option.not_mem_none last given).elim
  | some last => simp [after, Beyond, List.mem_filter]

theorem after_sublist : (after key seek rows).Sublist rows := by
  cases seek with
  | none => exact List.Sublist.refl rows
  | some last => exact List.filter_sublist

theorem sorted_perm : (sorted key rows).Perm rows := List.perm_insertionSort _ rows

theorem mem_sorted : row ∈ sorted key rows ↔ row ∈ rows := List.mem_insertionSort _

theorem sorted_increasing (unique : (rows.map key).Nodup) :
    (sorted key rows).Pairwise fun first second => key first < key second := by
  let below : Row → Row → Prop := fun first second => key first ≤ key second
  have : Std.Total below := ⟨fun first second => le_total (key first) (key second)⟩
  have : IsTrans Row below := ⟨fun _ _ _ => le_trans⟩
  have ordered : (sorted key rows).Pairwise below := List.pairwise_insertionSort below rows
  have apart : ((sorted key rows).map key).Nodup :=
    (sorted_perm.map key).nodup_iff.mpr unique
  exact ordered.imp₂ (fun _ _ => lt_of_le_of_ne) (List.pairwise_map.mp apart)

/-- Of rows in increasing order, the first ones are those not beyond the last of them. -/
theorem mem_take_iff {ordered : List Row} {last : Row}
    (increasing : ordered.Pairwise fun first second => key first < key second)
    (atEnd : (ordered.take limit).getLast? = some last) :
    row ∈ ordered.take limit ↔ row ∈ ordered ∧ key row ≤ key last := by
  obtain ⟨front, split⟩ := List.getLast?_eq_some_iff.mp atEnd
  have parts := increasing
  rw [← List.take_append_drop limit ordered, List.pairwise_append] at parts
  obtain ⟨taken, -, across⟩ := parts
  constructor
  · intro member
    refine ⟨List.mem_of_mem_take member, ?_⟩
    rw [split] at member taken
    rcases List.mem_append.mp member with early | same
    · exact (List.pairwise_append.mp taken).2.2 row early last (List.mem_singleton_self last) |>.le
    · rw [List.mem_singleton.mp same]
  · rintro ⟨member, small⟩
    rw [← List.take_append_drop limit ordered] at member
    rcases List.mem_append.mp member with early | late
    · exact early
    · have large := across last (List.mem_of_getLast? atEnd) row late
      exact absurd small (not_le_of_gt large)

theorem items_eq (key : Row → Key) (seek : Option Key) (limit : ℕ) (rows : List Row) :
    (page key seek limit rows).items = (sorted key (after key seek rows)).take limit := by
  simp only [page, List.take_take, Nat.min_eq_left (Nat.le_succ limit)]

theorem next_eq (key : Row → Key) (seek : Option Key) (limit : ℕ) (rows : List Row) :
    (page key seek limit rows).next
      = if limit < (after key seek rows).length
        then ((sorted key (after key seek rows)).take limit).getLast?.map key else none := by
  have same : (sorted key (after key seek rows)).length = (after key seek rows).length :=
    List.length_insertionSort _ _
  simp only [page, List.length_take, List.take_take, Nat.min_eq_left (Nat.le_succ limit), same,
    lt_inf_iff, Nat.lt_succ_self, true_and]

theorem unique_after (unique : (rows.map key).Nodup) : ((after key seek rows).map key).Nodup :=
  unique.sublist (after_sublist.map key)

theorem items_increasing (unique : (rows.map key).Nodup) :
    (page key seek limit rows).items.Pairwise fun first second => key first < key second := by
  rw [items_eq]
  exact (sorted_increasing (unique_after unique)).sublist (List.take_sublist _ _)

/-- **A page returns the rows of its table between two keys.** -/
theorem mem_items_iff (unique : (rows.map key).Nodup) (positive : 0 < limit) :
    row ∈ (page key seek limit rows).items
      ↔ row ∈ rows ∧ Beyond key seek row ∧ UpTo key (page key seek limit rows).next row := by
  have apart : ((after key seek rows).map key).Nodup := unique_after unique
  have ordered := sorted_increasing apart
  have inside : row ∈ sorted key (after key seek rows) ↔ row ∈ after key seek rows := mem_sorted
  rw [items_eq, next_eq, ← and_assoc, ← mem_after, ← inside]
  by_cases full : limit < (after key seek rows).length
  · rw [if_pos full]
    cases atEnd : ((sorted key (after key seek rows)).take limit).getLast? with
    | none =>
        have short := congrArg List.length (List.getLast?_eq_none_iff.mp atEnd)
        rw [List.length_take, sorted, List.length_insertionSort, List.length_nil] at short
        omega
    | some last =>
        rw [mem_take_iff ordered atEnd]
        simp [UpTo]
  · rw [if_neg full, List.take_of_length_le]
    · simp [UpTo]
    · rw [sorted, List.length_insertionSort]
      exact Nat.le_of_not_lt full

/-- The next page starts from the key of a row that was returned. -/
theorem mem_of_next {last : Key} (more : (page key seek limit rows).next = some last) :
    ∃ row ∈ (page key seek limit rows).items, key row = last := by
  rw [next_eq] at more
  rw [items_eq]
  split at more
  · obtain ⟨row, atEnd, same⟩ := Option.map_eq_some_iff.mp more
    exact ⟨row, List.mem_of_getLast? atEnd, same⟩
  · cases more

theorem beyond_of_beyond_next {last : Key} (unique : (rows.map key).Nodup) (positive : 0 < limit)
    (more : (page key seek limit rows).next = some last) (beyond : Beyond key (some last) row) :
    Beyond key seek row := by
  intro start given
  obtain ⟨final, member, rfl⟩ := mem_of_next more
  have passed := ((mem_items_iff unique positive).mp member).2.1 start given
  exact passed.trans (beyond (key final) rfl)

/-! ## Walks -/

variable {requests : List (List Row × ℕ)}

/-- The tables of a walk have distinct keys, and its limits are positive. -/
def Sound (key : Row → Key) (requests : List (List Row × ℕ)) : Prop :=
  ∀ request ∈ requests, (request.1.map key).Nodup ∧ 0 < request.2

omit [LinearOrder Key] in
theorem Sound.tail {request : List Row × ℕ} (sound : Sound key (request :: requests)) :
    Sound key requests := fun later member => sound later (List.mem_cons_of_mem request member)

theorem walk_cons_of_end (later : List (List Row × ℕ))
    (atEnd : (page key seek limit rows).next = none) :
    walk key ((rows, limit) :: later) seek = [page key seek limit rows] := by
  rw [walk, atEnd]

theorem walk_cons_of_more (later : List (List Row × ℕ)) {last : Key}
    (more : (page key seek limit rows).next = some last) :
    walk key ((rows, limit) :: later) seek
      = page key seek limit rows :: walk key later (some last) := by
  rw [walk, more]

/-- What a walk returns is beyond the key it starts from, and was in a table it read. -/
theorem of_mem_walk (sound : Sound key requests)
    (member : row ∈ returned (walk key requests seek)) :
    Beyond key seek row ∧ ∃ request ∈ requests, row ∈ request.1 := by
  induction requests generalizing seek with
  | nil => cases member
  | cons request later ih =>
      obtain ⟨rows, limit⟩ := request
      obtain ⟨unique, positive⟩ := sound _ List.mem_cons_self
      have here (inside : row ∈ (page key seek limit rows).items) :
          Beyond key seek row ∧ ∃ request ∈ (rows, limit) :: later, row ∈ request.1 := by
        obtain ⟨there, beyond, -⟩ := (mem_items_iff unique positive).mp inside
        exact ⟨beyond, _, List.mem_cons_self, there⟩
      cases next : (page key seek limit rows).next with
      | none =>
          rw [walk_cons_of_end later next, returned, List.flatMap_singleton] at member
          exact here member
      | some last =>
          rw [walk_cons_of_more later next, returned, List.flatMap_cons] at member
          rcases List.mem_append.mp member with first | after
          · exact here first
          · obtain ⟨further, request, made, inside⟩ := ih sound.tail after
            exact ⟨beyond_of_beyond_next unique positive next further, request,
              List.mem_cons_of_mem _ made, inside⟩

/-- **The keys of a walk increase**, whatever happens to the table between its pages. -/
theorem walk_increasing (sound : Sound key requests) :
    (returned (walk key requests seek)).Pairwise fun first second => key first < key second := by
  induction requests generalizing seek with
  | nil => exact List.Pairwise.nil
  | cons request later ih =>
      obtain ⟨rows, limit⟩ := request
      obtain ⟨unique, positive⟩ := sound _ List.mem_cons_self
      cases next : (page key seek limit rows).next with
      | none =>
          rw [walk_cons_of_end later next, returned, List.flatMap_singleton]
          exact items_increasing unique
      | some last =>
          rw [walk_cons_of_more later next, returned, List.flatMap_cons, List.pairwise_append]
          refine ⟨items_increasing unique, ih sound.tail, ?_⟩
          intro first here second there
          have low := ((mem_items_iff unique positive).mp here).2.2 last next
          exact lt_of_le_of_lt low ((of_mem_walk sound.tail there).1 last rfl)

omit [LinearOrder Key] in
theorem ended_cons {first : Page Row Key} {pages : List (Page Row Key)} {last : Key}
    (more : first.next = some last) : Ended (first :: pages) ↔ Ended pages := by
  cases pages with
  | nil =>
      constructor
      · rintro ⟨final, same, stops⟩
        have single : first = final := Option.some.inj same
        rw [← single, more] at stops
        cases stops
      · rintro ⟨final, same, -⟩
        cases same
  | cons second rest => simp only [Ended, List.getLast?_cons_cons]

/-- **A walk that has ended passed over no row** that every table it read has. -/
theorem mem_walk_of_ended (sound : Sound key requests) (ended : Ended (walk key requests seek))
    (beyond : Beyond key seek row)
    (present : ∀ request ∈ requests.take (walk key requests seek).length, row ∈ request.1) :
    row ∈ returned (walk key requests seek) := by
  induction requests generalizing seek with
  | nil =>
      obtain ⟨final, same, -⟩ := ended
      cases same
  | cons request later ih =>
      obtain ⟨rows, limit⟩ := request
      obtain ⟨unique, positive⟩ := sound _ List.mem_cons_self
      cases next : (page key seek limit rows).next with
      | none =>
          rw [walk_cons_of_end later next] at present ⊢
          have inside : row ∈ rows := present _ List.mem_cons_self
          have small : UpTo key (page key seek limit rows).next row := by
            rw [next]
            exact fun last given => (Option.not_mem_none last given).elim
          rw [returned, List.flatMap_singleton]
          exact (mem_items_iff unique positive).mpr ⟨inside, beyond, small⟩
      | some last =>
          rw [walk_cons_of_more later next] at present ended ⊢
          have inside : row ∈ rows := present _ List.mem_cons_self
          rw [returned, List.flatMap_cons, List.mem_append]
          by_cases small : key row ≤ last
          · refine Or.inl ((mem_items_iff unique positive).mpr ⟨inside, beyond, ?_⟩)
            intro other same
            rw [next] at same
            exact small.trans (Option.some.inj same).le
          · have further : Beyond key (some last) row := by
              intro other same
              rw [← Option.some.inj same]
              exact lt_of_not_ge small
            refine Or.inr (ih sound.tail ((ended_cons next).mp ended) further ?_)
            exact fun request member => present request (List.mem_cons_of_mem _ member)

/-! ## A table that stays as it is -/

theorem length_after_lt {last : Key} (unique : (rows.map key).Nodup) (positive : 0 < limit)
    (more : (page key seek limit rows).next = some last) :
    (after key (some last) rows).length < (after key seek rows).length := by
  obtain ⟨final, member, same⟩ := mem_of_next more
  obtain ⟨inside, beyond, -⟩ := (mem_items_iff unique positive).mp member
  have dropped : final ∉ after key (some last) rows := fun later =>
    (((mem_after.mp later).2 last rfl).trans_eq same).false
  have kept : final ∈ after key seek rows := mem_after.mpr ⟨inside, beyond⟩
  have distinct : (final :: after key (some last) rows).Nodup :=
    List.nodup_cons.mpr ⟨dropped, (unique_after unique).of_map⟩
  refine (List.subperm_of_subset distinct ?_).length_le
  intro row either
  rcases List.mem_cons.mp either with rfl | later
  · exact kept
  · obtain ⟨there, further⟩ := mem_after.mp later
    exact mem_after.mpr ⟨there, beyond_of_beyond_next unique positive more further⟩

omit [LinearOrder Key] in
theorem sound_map {limits : List ℕ} (unique : (rows.map key).Nodup)
    (positive : ∀ limit ∈ limits, 0 < limit) :
    Sound key (limits.map fun limit => (rows, limit)) := by
  intro request member
  obtain ⟨limit, given, rfl⟩ := List.mem_map.mp member
  exact ⟨unique, positive limit given⟩

/-- **A walk over a table that stays as it is ends**, if it may ask for more pages than there
are rows left. -/
theorem walk_ends {limits : List ℕ} (unique : (rows.map key).Nodup)
    (positive : ∀ limit ∈ limits, 0 < limit)
    (enough : (after key seek rows).length < limits.length) :
    Ended (walk key (limits.map fun limit => (rows, limit)) seek) := by
  induction limits generalizing seek with
  | nil => exact absurd enough (Nat.not_lt_zero _)
  | cons limit limits ih =>
      rw [List.map_cons]
      cases next : (page key seek limit rows).next with
      | none =>
          rw [walk_cons_of_end _ next]
          exact ⟨_, rfl, next⟩
      | some last =>
          have fewer := length_after_lt unique (positive limit List.mem_cons_self) next
          rw [walk_cons_of_more _ next, ended_cons next]
          apply ih fun limit member => positive limit (List.mem_cons_of_mem _ member)
          rw [List.length_cons] at enough
          omega

/-- **It has then returned the rows of the table in order.** -/
theorem walk_eq_sorted {limits : List ℕ} (unique : (rows.map key).Nodup)
    (positive : ∀ limit ∈ limits, 0 < limit)
    (ended : Ended (walk key (limits.map fun limit => (rows, limit)) none)) :
    returned (walk key (limits.map fun limit => (rows, limit)) none) = sorted key rows := by
  have sound := sound_map unique positive
  let below : Row → Row → Prop := fun first second => key first < key second
  have : Std.Irrefl below := ⟨fun row => lt_irrefl (key row)⟩
  have : Std.Antisymm below := ⟨fun first second low high => (low.asymm high).elim⟩
  refine List.Pairwise.eq_of_mem_iff (walk_increasing sound) (sorted_increasing unique) ?_
  intro row
  rw [mem_sorted]
  constructor
  · intro member
    obtain ⟨-, request, made, inside⟩ := of_mem_walk sound member
    obtain ⟨limit, -, rfl⟩ := List.mem_map.mp made
    exact inside
  · intro inside
    apply mem_walk_of_ended sound ended fun last given => (Option.not_mem_none last given).elim
    intro request made
    obtain ⟨limit, -, rfl⟩ := List.mem_map.mp (List.mem_of_mem_take made)
    exact inside

end Keyset
