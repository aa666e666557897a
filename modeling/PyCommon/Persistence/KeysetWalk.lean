import PyCommon.Lib.Keyset
import PyCommon.Persistence.CursorKeys

/-!
# Walks by cursor

A client that follows `next_cursor`: each page is a call of `paginate_cursor` with the cursor
of the page before, and reads its own snapshot of the table, so that rows may come and go
between two pages, the row that the cursor names among them. A request carries what is asked
of its snapshot and of its limits.

Each page is the page of the abstract keyset walk (`paginateCursor_page`): the cursor that it
was given is read as the key it starts from, and the cursor that it returns will be read as
the key where the next page starts. A walk in descending order is the abstract walk over the
dual order. So a walk never fails (`walk_refines`), and what holds of abstract walks holds of
it (`keyset_walk`): its keys are strictly monotone, it returns each row that stays exactly
once, and over a table that does not change it ends with all rows returned.
-/

set_option autoImplicit false

namespace PyCommon.Pagination

open CodePoints (Text)

/-! ## The order of a walk -/

section Query

variable {Row Key : Type}

/-- The order of a direction. -/
abbrev directed (descending : Bool) (order : LinearOrder Key) : LinearOrder Key :=
  match descending with
  | true => inferInstanceAs (LinearOrder Keyᵒᵈ)
  | false => order

theorem insertionSort_congr {first second : Row → Row → Prop} {decideFirst : DecidableRel first}
    {decideSecond : DecidableRel second} (same : ∀ a b, first a b ↔ second a b)
    (rows : List Row) : rows.insertionSort first = rows.insertionSort second := by
  have equal : first = second := by
    funext a b
    exact propext (same a b)
  subst equal
  congr!

/-- The query is the one of the abstract walk, over the order of its direction. -/
theorem execute_eq [order : LinearOrder Key] (key : Row → Key) (descending : Bool)
    (seek : Option Key) (count : ℤ) (snapshot : List Row) :
    execute key descending seek count snapshot
      = (@Keyset.sorted Row Key (directed descending order) key
          (@Keyset.after Row Key (directed descending order) key seek snapshot)).take
          count.toNat := by
  have sorts : ∀ rows : List Row,
      rows.insertionSort (fun a b => comesFirst descending (key a) (key b))
        = @Keyset.sorted Row Key (directed descending order) key rows := by
    intro rows
    refine insertionSort_congr ?_ rows
    intro a b
    cases descending <;> exact decide_eq_true_iff
  cases seek with
  | none => exact congrArg (List.take count.toNat) (sorts snapshot)
  | some last =>
      have selects : (snapshot.filter fun row => seekPredicate descending last (key row))
          = @Keyset.after Row Key (directed descending order) key (some last) snapshot := by
        cases descending <;> rfl
      rw [← selects]
      exact congrArg (List.take count.toNat) (sorts _)

/-- A query returns rows of its snapshot. -/
theorem mem_of_mem_execute [order : LinearOrder Key] {key : Row → Key} {descending : Bool}
    {seek : Option Key} {count : ℤ} {snapshot : List Row} {row : Row}
    (member : row ∈ execute key descending seek count snapshot) : row ∈ snapshot := by
  rw [execute_eq] at member
  have sorted := List.mem_of_mem_take member
  have later := (@Keyset.mem_sorted Row Key (directed descending order) key _ row).mp sorted
  exact ((@Keyset.mem_after Row Key (directed descending order) key seek _ row).mp later).1

theorem sliceTo_natCast (rows : List Row) (n : ℕ) : sliceTo rows (n : ℤ) = rows.take n := by
  rw [sliceTo, if_pos (Int.natCast_nonneg n), Int.toNat_natCast]

end Query

/-! ## Requests and pages -/

variable {Row : Type} {type : KeyType}

/-- What a query reads of a table whose key column is unique. -/
structure Snapshot (type : KeyType) (key : Row → type.Value) where
  rows : List Row
  unique : (rows.map key).Nodup
  holds : ∀ row ∈ rows, type.Holds (key row)

/-- One page request of a walk, and the snapshot that its query reads. -/
structure Request (type : KeyType) (key : Row → type.Value) where
  snapshot : Snapshot type key
  limit : ℤ
  maxLimit : ℤ
  limit_pos : 1 ≤ limit
  maxLimit_pos : 1 ≤ maxLimit

variable {key : Row → type.Value}

/-- The clamped limit. -/
def Request.size (request : Request type key) : ℕ := (min request.limit request.maxLimit).toNat

theorem Request.size_pos (request : Request type key) : 0 < request.size := by
  have first := request.limit_pos
  have second := request.maxLimit_pos
  unfold Request.size
  omega

theorem Request.clamp_eq (request : Request type key) :
    clamp request.limit request.maxLimit = .ok (request.size : ℤ) := by
  have first := request.limit_pos
  have second := request.maxLimit_pos
  have size : (request.size : ℤ) = min request.limit request.maxLimit :=
    Int.toNat_of_nonneg (by omega)
  rw [clamp, if_neg (by omega), size]

/-- A page, and the page of the abstract walk that it is: its cursor will be read as the key
where the next page starts. -/
structure IsPage (python : Interpreter) (page : Page Row)
    (abstract : Keyset.Page Row type.Value) : Prop where
  items : page.items = abstract.items
  hasMore : page.pageMeta.hasMore = abstract.next.isSome
  nextCursor : page.pageMeta.nextCursor.isSome = abstract.next.isSome
  reads : seekOf python (type.columnType python) page.pageMeta.nextCursor = .ok abstract.next

variable [order : LinearOrder type.Value] {python : Interpreter}

/-- **Each page is a page of the abstract walk**, from the key that its cursor is read as. -/
theorem paginateCursor_page (request : Request type key) (descending : Bool)
    {cursor : Option Text} {seek : Option type.Value}
    (reads : seekOf python (type.columnType python) cursor = .ok seek) :
    ∃ page, paginateCursor python (type.columnType python) key request.snapshot.rows
        request.limit cursor descending request.maxLimit = .ok page
      ∧ IsPage python page
        (@Keyset.page Row type.Value (directed descending order) key seek request.size
          request.snapshot.rows) := by
  have positive := request.size_pos
  have found := execute_eq key descending seek (request.size + 1) request.snapshot.rows
  have inside : ∀ row ∈ execute key descending seek (request.size + 1) request.snapshot.rows,
      row ∈ request.snapshot.rows := fun row => mem_of_mem_execute
  generalize given : execute key descending seek (request.size + 1) request.snapshot.rows = rows
    at found inside
  have page : @Keyset.page Row type.Value (directed descending order) key seek request.size
        request.snapshot.rows
      = { items := rows.take request.size
          next := if request.size < rows.length
            then (rows.take request.size).getLast?.map key else none } := by
    rw [found]
    rfl
  rw [page]
  by_cases more : request.size < rows.length
  · obtain ⟨last, atEnd⟩ : ∃ last, (rows.take request.size).getLast? = some last := by
      rw [← Option.isSome_iff_exists, List.getLast?_isSome, ← List.length_pos_iff_ne_nil,
        List.length_take]
      omega
    have stored := inside last (List.mem_of_mem_take (List.mem_of_getLast? atEnd))
    obtain ⟨next, issued, back⟩ : ∃ next,
        cursorAfter python (type.columnType python) key (rows.take request.size) = .ok (some next)
          ∧ seekOf python (type.columnType python) (some next) = .ok (some (key last)) :=
      seekOf_cursor atEnd (KeyType.returns (request.snapshot.holds last stored))
    refine ⟨{ items := rows.take request.size, pageMeta :=
      { limit := request.size, nextCursor := some next, hasMore := true } }, ?_, ?_⟩
    · have hasMore : decide ((request.size : ℤ) < rows.length) = true :=
        decide_eq_true (Int.ofNat_lt.mpr more)
      simp only [paginateCursor, request.clamp_eq, reads, given, sliceTo_natCast, issued, hasMore,
        bind, Except.bind, pure, Except.pure, if_true]
    · rw [if_pos more, atEnd]
      exact ⟨rfl, rfl, rfl, back⟩
  · refine ⟨{ items := rows.take request.size, pageMeta :=
      { limit := request.size, nextCursor := none, hasMore := false } }, ?_, ?_⟩
    · have hasMore : decide ((request.size : ℤ) < rows.length) = false :=
        decide_eq_false fun less => more (Int.ofNat_lt.mp less)
      simp only [paginateCursor, request.clamp_eq, reads, given, sliceTo_natCast, hasMore, bind,
        Except.bind, pure, Except.pure, Bool.false_eq_true, if_false]
    · rw [if_neg more]
      exact ⟨rfl, rfl, rfl, rfl⟩

/-! ## Walks -/

/-- The pages of a client that follows the cursors. -/
def walk (python : Interpreter) (descending : Bool) :
    List (Request type key) → Option Text → Except CursorExc (List (Page Row))
  | [], _ => .ok []
  | request :: later, cursor => do
      let page ← paginateCursor python (type.columnType python) key request.snapshot.rows
        request.limit cursor descending request.maxLimit
      match page.pageMeta.nextCursor with
      | none => return [page]
      | some next => do
          let pages ← walk python descending later (some next)
          return page :: pages

/-- The rows of all pages, in the order in which they were returned. -/
def returned (pages : List (Page Row)) : List Row := pages.flatMap Page.items

/-- The last page has no cursor. -/
def Ended (pages : List (Page Row)) : Prop :=
  ∃ last ∈ pages.getLast?, last.pageMeta.nextCursor = none

/-- What the abstract walk reads of a request. -/
def Request.read (request : Request type key) : List Row × ℕ :=
  (request.snapshot.rows, request.size)

omit order in
theorem sound_read (requests : List (Request type key)) :
    Keyset.Sound key (requests.map Request.read) := by
  intro read member
  obtain ⟨request, -, rfl⟩ := List.mem_map.mp member
  exact ⟨request.snapshot.unique, request.size_pos⟩

/-- **A walk does not fail, and its pages are those of the abstract walk.** -/
theorem walk_refines (requests : List (Request type key)) (descending : Bool)
    {cursor : Option Text} {seek : Option type.Value}
    (reads : seekOf python (type.columnType python) cursor = .ok seek) :
    ∃ pages, walk python descending requests cursor = .ok pages
      ∧ List.Forall₂ (IsPage python) pages
        (@Keyset.walk Row type.Value (directed descending order) key (requests.map Request.read)
          seek) := by
  induction requests generalizing cursor seek with
  | nil => exact ⟨[], rfl, List.Forall₂.nil⟩
  | cons request later ih =>
      obtain ⟨page, answered, same⟩ := paginateCursor_page request descending reads
      rw [List.map_cons, Request.read]
      cases next : (@Keyset.page Row type.Value (directed descending order) key seek request.size
          request.snapshot.rows).next with
      | none =>
          have last : page.pageMeta.nextCursor = none := by
            rw [← Option.not_isSome_iff_eq_none, same.nextCursor, next]
            exact Bool.false_ne_true
          rw [@Keyset.walk_cons_of_end Row type.Value (directed descending order) key _ _ _ _ next]
          refine ⟨[page], ?_, List.Forall₂.cons same List.Forall₂.nil⟩
          simp only [walk, answered, last, bind, Except.bind, pure, Except.pure]
      | some start =>
          obtain ⟨cursor, more⟩ : ∃ cursor, page.pageMeta.nextCursor = some cursor := by
            rw [← Option.isSome_iff_exists, same.nextCursor, next]
            rfl
          have continued := same.reads
          rw [more, next] at continued
          obtain ⟨pages, walked, matching⟩ := ih continued
          rw [@Keyset.walk_cons_of_more Row type.Value (directed descending order) key _ _ _ _ _
            next]
          refine ⟨page :: pages, ?_, List.Forall₂.cons same matching⟩
          simp only [walk, answered, more, walked, bind, Except.bind, pure, Except.pure]

section Pages

variable {pages : List (Page Row)} {abstract : List (Keyset.Page Row type.Value)}

omit order

theorem hasMore_eq (same : List.Forall₂ (IsPage python) pages abstract) :
    ∀ page ∈ pages, page.pageMeta.hasMore = page.pageMeta.nextCursor.isSome := by
  induction same with
  | nil => exact fun page member => (List.not_mem_nil member).elim
  | cons first _ ih =>
      intro page member
      rcases List.mem_cons.mp member with rfl | later
      · rw [first.hasMore, first.nextCursor]
      · exact ih page later

theorem returned_eq (same : List.Forall₂ (IsPage python) pages abstract) :
    returned pages = Keyset.returned abstract := by
  induction same with
  | nil => rfl
  | cons first _ ih =>
      rw [returned, Keyset.returned, List.flatMap_cons, List.flatMap_cons, first.items]
      exact congrArg _ ih

theorem ended_iff (same : List.Forall₂ (IsPage python) pages abstract) :
    Ended pages ↔ Keyset.Ended abstract := by
  have flipped := List.rel_reverse same
  rw [Ended, Keyset.Ended, ← List.head?_reverse, ← List.head?_reverse]
  generalize pages.reverse = ends at flipped
  generalize abstract.reverse = abstractEnds at flipped
  cases flipped with
  | nil =>
      constructor
      · rintro ⟨last, member, -⟩
        cases member
      · rintro ⟨last, member, -⟩
        cases member
  | cons first _ =>
      have cursors := first.nextCursor
      simp only [List.head?_cons, Option.mem_some_iff, exists_eq_left',
        ← Option.not_isSome_iff_eq_none, cursors]

end Pages

/-- The key of one row comes before that of another in the order of a walk. -/
def Precedes (key : Row → type.Value) (descending : Bool) (first second : Row) : Prop :=
  if descending then key second < key first else key first < key second

theorem ne_of_precedes {descending : Bool} {first second : Row}
    (before : Precedes key descending first second) : key first ≠ key second := by
  cases descending with
  | false => exact before.ne
  | true => exact before.ne'

theorem precedes_iff (descending : Bool) (first second : Row) :
    Precedes key descending first second
      ↔ @LT.lt type.Value (directed descending order).toLT (key first) (key second) := by
  cases descending <;> exact Iff.rfl

/-- The walk from the start, whatever the snapshots are. -/
theorem walk_of_snapshots (requests : List (Request type key)) (descending : Bool) :
    ∃ pages, walk python descending requests none = .ok pages
      ∧ (returned pages).Pairwise (Precedes key descending)
      ∧ (∀ page ∈ pages, page.pageMeta.hasMore = page.pageMeta.nextCursor.isSome)
      ∧ (Ended pages → ∀ row,
        (∀ request ∈ requests.take pages.length, row ∈ request.snapshot.rows) →
          row ∈ returned pages ∧ ((returned pages).map key).count (key row) = 1) := by
  have start : seekOf python (type.columnType python) none = .ok none := rfl
  obtain ⟨pages, walked, same⟩ := walk_refines requests descending start
  have sound := sound_read requests
  have increasing := @Keyset.walk_increasing Row type.Value (directed descending order) key none
    (requests.map Request.read) sound
  rw [← returned_eq same] at increasing
  have monotone : (returned pages).Pairwise (Precedes key descending) :=
    increasing.imp fun {first second} => (precedes_iff descending first second).mpr
  refine ⟨pages, walked, monotone, hasMore_eq same, ?_⟩
  intro ended row present
  have member : row ∈ returned pages := by
    rw [returned_eq same]
    apply @Keyset.mem_walk_of_ended Row type.Value (directed descending order) key none row
      (requests.map Request.read) sound ((ended_iff same).mp ended)
    · exact fun last given => (Option.not_mem_none last given).elim
    · intro read made
      rw [← same.length_eq, ← List.map_take] at made
      obtain ⟨request, early, rfl⟩ := List.mem_map.mp made
      exact present request early
  have distinct : ((returned pages).map key).Nodup := by
    rw [List.Nodup, List.pairwise_map]
    exact monotone.imp fun {first second} => ne_of_precedes
  exact ⟨member, List.count_eq_one_of_mem distinct (List.mem_map_of_mem member)⟩

/-- The walk from the start over a table that does not change. -/
theorem walk_of_table (table : Snapshot type key) (descending : Bool)
    {requests : List (Request type key)}
    (unchanged : ∀ request ∈ requests, request.snapshot = table)
    (enough : table.rows.length < requests.length) :
    ∃ pages, walk python descending requests none = .ok pages ∧ Ended pages
      ∧ (∀ last ∈ pages.getLast?, last.pageMeta.hasMore = false)
      ∧ (returned pages).Perm table.rows := by
  have start : seekOf python (type.columnType python) none = .ok none := rfl
  obtain ⟨pages, walked, same⟩ := walk_refines requests descending start
  have read : requests.map Request.read
      = (requests.map Request.size).map fun limit => (table.rows, limit) := by
    rw [List.map_map]
    refine List.map_congr_left fun request member => ?_
    rw [Request.read, unchanged request member, Function.comp_apply]
  have positive : ∀ limit ∈ requests.map Request.size, 0 < limit := by
    intro limit member
    obtain ⟨request, -, rfl⟩ := List.mem_map.mp member
    exact request.size_pos
  rw [read] at same
  have ended := @Keyset.walk_ends Row type.Value (directed descending order) key none table.rows
    (requests.map Request.size) table.unique positive (by rwa [List.length_map])
  have whole := @Keyset.walk_eq_sorted Row type.Value (directed descending order) key table.rows
    (requests.map Request.size) table.unique positive ended
  refine ⟨pages, walked, (ended_iff same).mpr ended, ?_, ?_⟩
  · intro last atEnd
    obtain ⟨final, given, stops⟩ := (ended_iff same).mpr ended
    rw [Option.mem_unique atEnd given, hasMore_eq same final (List.mem_of_getLast? given), stops]
    rfl
  · rw [returned_eq same, whole]
    exact @Keyset.sorted_perm Row type.Value (directed descending order) key table.rows

/-- **Following the cursors reads a table as it is.** Whatever is inserted and deleted between
the pages, a walk does not fail; its keys are strictly monotone in its direction; once it has
ended, a row that was in every snapshot it read was returned, and no other row with its key;
and over a table that does not change it ends, at the latest with the page after as many pages
as there are rows, having returned the rows of the table. A page has a next cursor exactly if
it says that there is more. -/
theorem keyset_walk (python : Interpreter) (key : Row → type.Value) (descending : Bool) :
    (∀ requests : List (Request type key), ∃ pages,
      walk python descending requests none = .ok pages
        ∧ (returned pages).Pairwise (Precedes key descending)
        ∧ (∀ page ∈ pages, page.pageMeta.hasMore = page.pageMeta.nextCursor.isSome)
        ∧ (Ended pages → ∀ row,
          (∀ request ∈ requests.take pages.length, row ∈ request.snapshot.rows) →
            row ∈ returned pages ∧ ((returned pages).map key).count (key row) = 1))
    ∧ ∀ (table : Snapshot type key) (requests : List (Request type key)),
      (∀ request ∈ requests, request.snapshot = table) → table.rows.length < requests.length →
        ∃ pages, walk python descending requests none = .ok pages ∧ Ended pages
          ∧ (∀ last ∈ pages.getLast?, last.pageMeta.hasMore = false)
          ∧ (returned pages).Perm table.rows := by
  refine ⟨fun requests => walk_of_snapshots requests descending, ?_⟩
  exact fun table requests unchanged enough => walk_of_table table descending unchanged enough

/-! ## Three rows -/

instance : LinearOrder (KeyType.Value .int) := inferInstanceAs (LinearOrder ℤ)

/-- An interpreter of which a walk over integers asks for none of the tables. -/
def plainPython : Interpreter where
  room := 900
  float literal := literal
  truncate _ := .error .conversionError
  repr _ := []
  fold _ := '?'

/-- The key of a row that is its own key. -/
def ownKey (row : ℤ) : KeyType.Value .int := row

def threeRows : Snapshot .int ownKey where
  rows := [30, 10, 20]
  unique := by decide
  holds := by
    have each : ∀ row ∈ [(30 : ℤ), 10, 20], Printable row := by
      unfold Printable
      decide
    exact each

/-- A request for two of three rows. -/
def pairOfThree : Request .int ownKey where
  snapshot := threeRows
  limit := 2
  maxLimit := 100
  limit_pos := by decide
  maxLimit_pos := by decide

theorem three_rows_walked :
    ∃ pages, walk plainPython true (List.replicate 4 pairOfThree) none = .ok pages ∧ Ended pages
      ∧ (∀ last ∈ pages.getLast?, last.pageMeta.hasMore = false)
      ∧ (returned pages).Perm [30, 10, 20] :=
  (keyset_walk plainPython ownKey true).2 threeRows (List.replicate 4 pairOfThree)
    (fun _ member => congrArg Request.snapshot (List.eq_of_mem_replicate member)) (by decide)

example : (walk plainPython true (List.replicate 4 pairOfThree) none).toOption.map
    (fun pages => pages.map fun page => (page.items, page.pageMeta.hasMore))
      = some [([30, 20], true), ([10], false)] := by decide +kernel

end PyCommon.Pagination
