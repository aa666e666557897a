import PyCommon.Lib.Slices
import PyCommon.Persistence.Pagination

/-!
# Walks by offset

A client that asks for page after page of a table that does not change: each page is a call of
`paginate_offset`, and while a page says that there are more, the next call adds the limit that
it returned to the offset. Every query may find the rows in another order, as far as the
statement allows; a statement is deterministic if it allows one order only.

A page is a slice of the rows in their order (`paginateOffset_eq`), so that the walk is the list
of the slices (`offsetWalk_eq`), and its pages partition the result (`pages_partition`). This
holds of statements without a limit and an offset of their own: `paginate_offset` replaces these
for its page, but counts the rows that they leave (`limited_statement`).
-/

set_option autoImplicit false

namespace PyCommon.Pagination

open Slices (slice count)

variable {Row : Type}

/-! ## Statements -/

/-- A query may find the rows that the statement selects in this order. -/
structure Statement.Arranges (stmt : Statement Row) (selected arranged : List Row) : Prop where
  perm : arranged.Perm selected
  ordered : arranged.Pairwise stmt.comesFirst

/-- Of two different rows, the statement puts one first. -/
def Statement.Deterministic (stmt : Statement Row) (selected : List Row) : Prop :=
  ∀ first ∈ selected, ∀ second ∈ selected,
    stmt.comesFirst first second → stmt.comesFirst second first → first = second

/-- The statement has no limit and no offset of its own. -/
structure Statement.Plain (stmt : Statement Row) : Prop where
  limitClause : stmt.limitClause = none
  offsetClause : stmt.offsetClause = none

variable {stmt : Statement Row} {selected : List Row}

/-- **A deterministic statement has one result.** -/
theorem Statement.Arranges.unique {first second : List Row}
    (deterministic : stmt.Deterministic selected) (one : stmt.Arranges selected first)
    (other : stmt.Arranges selected second) : first = second := by
  apply List.Perm.eq_of_pairwise ?_ one.ordered other.ordered (one.perm.trans other.perm.symm)
  intro a b here there
  exact deterministic a (one.perm.mem_iff.mp here) b (other.perm.mem_iff.mp there)

theorem Statement.Plain.window_eq (plain : stmt.Plain) (rows : List Row) :
    stmt.window rows = rows := by
  rw [Statement.window, plain.limitClause, plain.offsetClause]
  rfl

/-! ## One page -/

/-- The page with this number, from zero on, of the result in pages of `size` rows. -/
def pageOf (result : List Row) (size : ℕ) (withTotal : Bool) (n : ℕ) : Page Row where
  items := slice size result n
  pageMeta :=
    { limit := size
      offset := some (n * size : ℕ)
      page := some (n + 1)
      totalItems := if withTotal then some result.length else none
      hasMore := (n + 1) * size < result.length }

theorem hasMore_pageOf {result : List Row} {size : ℕ} {withTotal : Bool} (positive : 0 < size)
    {n : ℕ} : (pageOf result size withTotal n).pageMeta.hasMore
      = decide (n + 1 < count size result) :=
  decide_eq_decide.mpr (Slices.lt_count_iff positive).symm

theorem clamp_of_pos {limit maxLimit : ℤ} (limit_pos : 1 ≤ limit) (maxLimit_pos : 1 ≤ maxLimit) :
    ∃ size : ℕ, 0 < size ∧ (size : ℤ) = min limit maxLimit ∧ clamp limit maxLimit = .ok size := by
  have least : 1 ≤ min limit maxLimit := le_min limit_pos maxLimit_pos
  have size : ((min limit maxLimit).toNat : ℤ) = min limit maxLimit :=
    Int.toNat_of_nonneg (by omega)
  refine ⟨(min limit maxLimit).toNat, by omega, size, ?_⟩
  rw [clamp, if_neg (by omega), size]

/-- The query of a page: a limit of one row more than the page, and the offset. -/
def pageQuery (stmt : Statement Row) (size offset : ℕ) : Statement Row :=
  { stmt with limitClause := some (size + 1), offsetClause := some offset }

theorem window_pageQuery (rows : List Row) (size offset : ℕ) :
    (pageQuery stmt size offset).window rows = (rows.drop offset).take (size + 1) := rfl

/-- **A page is a slice of the result.** -/
theorem paginateOffset_eq (plain : stmt.Plain) {arranged : List Row}
    (arranges : stmt.Arranges selected arranged) {limit maxLimit : ℤ} {size : ℕ}
    (positive : 0 < size) (clamped : clamp limit maxLimit = .ok size) (withTotal : Bool) (n : ℕ) :
    paginateOffset stmt selected arranged limit (n * size : ℕ) maxLimit withTotal
      = .ok (pageOf arranged size withTotal n) := by
  have started : ¬ ((n * size : ℕ) : ℤ) < 0 := by omega
  have nonzero : ¬ (size : ℤ) = 0 := by omega
  have number : ((n * size : ℕ) : ℤ).fdiv size = n := by
    rw [Int.fdiv_eq_ediv_of_nonneg _ (Int.natCast_nonneg size), Int.natCast_mul,
      Int.mul_ediv_cancel _ nonzero]
  have total : (selected.length : ℤ) = arranged.length := by rw [arranges.perm.length_eq]
  have items : sliceTo ((pageQuery stmt size (n * size)).window arranged) size
      = slice size arranged n := by
    rw [window_pageQuery, sliceTo, if_pos (Int.natCast_nonneg size), Int.toNat_natCast,
      List.take_take, Nat.min_eq_left size.le_succ, slice]
  have more : decide ((size : ℤ) < ((pageQuery stmt size (n * size)).window arranged).length)
      = decide ((n + 1) * size < arranged.length) := by
    have split : (n + 1) * size = n * size + size := Nat.succ_mul n size
    rw [decide_eq_decide, window_pageQuery, List.length_take, List.length_drop]
    omega
  rw [pageQuery] at items more
  simp only [paginateOffset, clamped, bind, Except.bind, pure, Except.pure, if_neg started,
    plain.window_eq, number, total, items, more, if_neg nonzero, pageOf]

/-! ## Walks -/

/-- The pages that a client asks for from an offset on, at most `fuel` of them. The query of the
`n`-th call finds the rows in the order `arrange n`. -/
def offsetWalk (stmt : Statement Row) (selected : List Row) (arrange : ℕ → List Row)
    (limit maxLimit : ℤ) (withTotal : Bool) : ℕ → ℕ → ℤ → Except CursorExc (List (Page Row))
  | 0, _, _ => .ok []
  | fuel + 1, n, offset => do
      let page ← paginateOffset stmt selected (arrange n) limit offset maxLimit withTotal
      if page.pageMeta.hasMore then
        let pages ← offsetWalk stmt selected arrange limit maxLimit withTotal fuel (n + 1)
          (offset + page.pageMeta.limit)
        return page :: pages
      else return [page]

section Walk

variable {arrange : ℕ → List Row} {result : List Row} {limit maxLimit : ℤ} {size : ℕ}
  {withTotal : Bool}

/-- From each page on, a walk is the list of the pages that are left. -/
theorem offsetWalk_from (positive : 0 < size)
    (answers : ∀ n : ℕ, paginateOffset stmt selected (arrange n) limit (n * size : ℕ) maxLimit
      withTotal = .ok (pageOf result size withTotal n)) {left n : ℕ}
    (reach : n + (left + 1) = count size result) {fuel : ℕ} (enough : left < fuel) :
    offsetWalk stmt selected arrange limit maxLimit withTotal fuel n (n * size : ℕ)
      = .ok ((List.range' n (left + 1)).map (pageOf result size withTotal)) := by
  induction left generalizing n fuel with
  | zero =>
      obtain ⟨fuel, rfl⟩ : ∃ less, fuel = less + 1 := ⟨fuel - 1, by omega⟩
      have last : (pageOf result size withTotal n).pageMeta.hasMore = false := by
        rw [hasMore_pageOf positive, decide_eq_false_iff_not]
        omega
      rw [offsetWalk, answers]
      simp only [bind, Except.bind, pure, Except.pure, last, Bool.false_eq_true, if_false]
      rfl
  | succ left ih =>
      obtain ⟨fuel, rfl⟩ : ∃ less, fuel = less + 1 := ⟨fuel - 1, by omega⟩
      have more : (pageOf result size withTotal n).pageMeta.hasMore = true := by
        rw [hasMore_pageOf positive, decide_eq_true_iff]
        omega
      have next : ((n * size : ℕ) : ℤ) + (pageOf result size withTotal n).pageMeta.limit
          = ((n + 1) * size : ℕ) := by
        rw [Nat.succ_mul, Int.natCast_add, pageOf]
      have later : offsetWalk stmt selected arrange limit maxLimit withTotal fuel (n + 1)
          ((n + 1) * size : ℕ)
            = .ok ((List.range' (n + 1) (left + 1)).map (pageOf result size withTotal)) :=
        ih (by omega) (by omega)
      rw [offsetWalk, answers]
      simp only [bind, Except.bind, pure, Except.pure, more, if_true, next, later]
      rfl

/-- **A walk is the list of the pages of the result.** -/
theorem offsetWalk_eq (plain : stmt.Plain)
    (arranges : ∀ n, stmt.Arranges selected (arrange n)) (same : ∀ n, arrange n = result)
    (positive : 0 < size) (clamped : clamp limit maxLimit = .ok size) {fuel : ℕ}
    (enough : selected.length < fuel) :
    offsetWalk stmt selected arrange limit maxLimit withTotal fuel 0 0
      = .ok ((List.range (count size result)).map (pageOf result size withTotal)) := by
  have length : result.length = selected.length := by
    rw [← same 0]
    exact (arranges 0).perm.length_eq
  have answers : ∀ n : ℕ, paginateOffset stmt selected (arrange n) limit (n * size : ℕ) maxLimit
      withTotal = .ok (pageOf result size withTotal n) := by
    intro n
    rw [paginateOffset_eq plain (arranges n) positive clamped, same]
  have few : count size result ≤ result.length + 1 := Slices.count_le result
  have last : count size result = (result.length - 1) / size + 1 := rfl
  have walked : offsetWalk stmt selected arrange limit maxLimit withTotal fuel 0 (0 * size : ℕ)
      = .ok ((List.range' 0 ((result.length - 1) / size + 1)).map (pageOf result size withTotal)) :=
    offsetWalk_from positive answers (by omega) (by omega)
  rw [Nat.zero_mul, ← last] at walked
  rw [List.range_eq_range']
  exact walked

end Walk

/-! ## The pages partition the result -/

/-- Pages that are the whole of a result, of at most `size` rows each. -/
structure Partitions (result : List Row) (size : ℤ) (withTotal : Bool) (pages : List (Page Row)) :
    Prop where
  whole : pages.flatMap Page.items = result
  numbered : pages.map (fun page => page.pageMeta.page)
    = (List.range pages.length).map fun n : ℕ => some (n + 1 : ℤ)
  short : ∀ page ∈ pages, (page.items.length : ℤ) ≤ size
  total : ∀ page ∈ pages,
    page.pageMeta.totalItems = if withTotal then some (result.length : ℤ) else none
  hasMore : ∀ (n : ℕ) (inside : n < pages.length), pages[n].pageMeta.hasMore = true
    ↔ ((pages.take (n + 1)).flatMap Page.items).length < result.length

theorem partitions_pageOf {result : List Row} {size : ℕ} (positive : 0 < size) (withTotal : Bool) :
    Partitions result size withTotal
      ((List.range (count size result)).map (pageOf result size withTotal)) where
  whole := by
    rw [List.flatMap_map]
    exact Slices.flatMap_slice_count positive
  numbered := by
    rw [List.map_map, List.length_map, List.length_range]
    rfl
  short := by
    intro page member
    obtain ⟨n, -, rfl⟩ := List.mem_map.mp member
    exact Int.ofNat_le.mpr (Slices.length_slice_le n)
  total := by
    intro page member
    obtain ⟨n, -, rfl⟩ := List.mem_map.mp member
    rfl
  hasMore := by
    intro n inside
    rw [List.length_map, List.length_range] at inside
    have front : ((List.range (count size result)).map (pageOf result size withTotal)).take (n + 1)
        = (List.range (n + 1)).map (pageOf result size withTotal) := by
      rw [← List.map_take, List.take_range, Nat.min_eq_left inside]
    have items : ((List.range (n + 1)).map (pageOf result size withTotal)).flatMap Page.items
        = result.take ((n + 1) * size) := by
      rw [List.flatMap_map]
      exact Slices.flatMap_slice (n + 1)
    rw [List.getElem_map, List.getElem_range, front, items, List.length_take, pageOf,
      decide_eq_true_iff]
    omega

/-- **The pages of a walk by offset partition the result** of a statement without a limit and an
offset of its own, however many pages the client may ask for beyond the rows. -/
theorem pages_partition (plain : stmt.Plain) (deterministic : stmt.Deterministic selected)
    {arrange : ℕ → List Row} (arranges : ∀ n, stmt.Arranges selected (arrange n))
    {result : List Row} (ordered : stmt.Arranges selected result) {limit maxLimit : ℤ}
    (limit_pos : 1 ≤ limit) (maxLimit_pos : 1 ≤ maxLimit) (withTotal : Bool) :
    ∃ pages, Partitions result (min limit maxLimit) withTotal pages
      ∧ ∀ fuel, selected.length < fuel →
        offsetWalk stmt selected arrange limit maxLimit withTotal fuel 0 0 = .ok pages := by
  obtain ⟨size, positive, least, clamped⟩ : ∃ size : ℕ, 0 < size
      ∧ (size : ℤ) = min limit maxLimit ∧ clamp limit maxLimit = .ok (size : ℤ) :=
    clamp_of_pos limit_pos maxLimit_pos
  have same : ∀ n, arrange n = result := fun n => (arranges n).unique deterministic ordered
  refine ⟨_, ?_, fun fuel => offsetWalk_eq plain arranges same positive clamped⟩
  rw [← least]
  exact partitions_pageOf positive withTotal

/-- Three rows in two pages. -/
theorem three_rows_partition :
    ∃ pages, Partitions [1, 2, 3] 2 true pages
      ∧ ∀ fuel, 3 < fuel →
        offsetWalk { comesFirst := fun first second : ℕ => first ≤ second } [2, 3, 1]
          (fun _ => [1, 2, 3]) 5 2 true fuel 0 0 = .ok pages := by
  have arranges : Statement.Arranges { comesFirst := fun first second : ℕ => first ≤ second }
      [2, 3, 1] [1, 2, 3] := ⟨by decide, by decide⟩
  exact pages_partition ⟨rfl, rfl⟩ (fun _ _ _ _ => Nat.le_antisymm) (fun _ => arranges) arranges
    (show (1 : ℤ) ≤ 5 by decide) (show (1 : ℤ) ≤ 2 by decide) true

/-- The rows that a limit of the statement leaves out are in the pages and not in the total. -/
theorem limited_statement :
    let stmt : Statement ℕ :=
      { comesFirst := fun first second => first ≤ second, limitClause := some 1 }
    stmt.Deterministic [1, 2] ∧ stmt.Arranges [1, 2] [1, 2]
      ∧ ¬ ∃ pages result, Partitions result (min 5 5) true pages
        ∧ ∀ fuel, 2 < fuel →
          offsetWalk stmt [1, 2] (fun _ => [1, 2]) 5 5 true fuel 0 0 = .ok pages := by
  refine ⟨fun _ _ _ _ => Nat.le_antisymm, ⟨by decide, by decide⟩, ?_⟩
  rintro ⟨pages, result, partitions, walked⟩
  have one : Except.ok pages = Except.ok (ε := CursorExc) _ := (walked 3 (by decide)).symm
  cases one
  have total : some (1 : ℤ) = some (result.length : ℤ) := partitions.total _ List.mem_cons_self
  rw [← partitions.whole] at total
  cases total

end PyCommon.Pagination
