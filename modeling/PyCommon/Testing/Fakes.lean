import Mathlib.Data.Int.Notation
import Mathlib.Data.List.Nodup
import Mathlib.Data.Nat.Basic
import Mathlib.Order.Lattice
import PyCommon.Lib.Dictionaries
import PyCommon.Lib.Outcomes
import PyCommon.Lib.Slices
import PyCommon.Lib.StableSorts

/-!
# The in-memory repository

`InMemoryRepository` keeps its entities in a dictionary and orders them by attribute names, of
which a leading `-` makes one descending. `_sorted_by` sorts once for each name, from the last one
to the first.

The passes make one stable sort by all the names, the first of which counts most, each in its own
direction, and the pages of `get_list` make up what it returns (`getList_sorts`).
-/

set_option autoImplicit false

namespace PyCommon.Fakes

open Dictionaries (assign nodup_assign)
open StableSorts

/-- A Python `str` without lone surrogates. -/
abbrev Text := List Char

/-! ## Orderings -/

inductive OrderingError where
  | typeError (message : Text)
  | attributeError (name : Text)
  deriving DecidableEq

/-- An item of a sequence of ordering fields, by its `repr` where it is no `str`. -/
inductive Field where
  | str (field : Text)
  | other (repr : Text)
  deriving DecidableEq

/-- What is given as an ordering: a `str`, a list or a tuple, or something else, by its `repr`. -/
inductive OrderBy where
  | str (field : Text)
  | sequence (fields : List Field)
  | other (repr : Text)
  deriving DecidableEq

/-- `_ORDER_BY_ERROR`. -/
def orderByError (repr : Text) : Text :=
  "InMemoryRepository orders by attribute name, got ".toList ++ repr ++
    ". Pass 'created_at' or '-created_at' rather than a SQLAlchemy expression.".toList

/-- The fields of an ordering. -/
def OrderBy.fields : OrderBy → Except OrderingError (List Field)
  | .str field => .ok [.str field]
  | .sequence fields => .ok fields
  | .other repr => .error (.typeError (orderByError repr))

/-- `field.startswith("-")`. -/
def descending (field : Text) : Bool := ['-'].isPrefixOf field

/-- `field.removeprefix("-")`. -/
def attributeOf (field : Text) : Text := if descending field then field.drop 1 else field

/-! ## Sorting -/

section Sorting

variable {Entity Key : Type} [LinearOrder Key]

/-- Python's sort of a list with its keys. It asks for nothing but whether a key is less than
another. In reverse, the list is reversed before and after. -/
def sortKeyed (keyed : List (Key × Entity)) (reverse : Bool) : List (Key × Entity) :=
  if reverse then (keyed.reverse.mergeSort fun a b => !decide (b.1 < a.1)).reverse
  else keyed.mergeSort fun a b => !decide (b.1 < a.1)

/-- `sorted(items, key=key, reverse=reverse)`. -/
def sorted (items : List Entity) (key : Entity → Except OrderingError Key) (reverse : Bool) :
    Except OrderingError (List Entity) := do
  let keyed ← items.mapM fun item => (key item).map fun value => (value, item)
  return (sortKeyed keyed reverse).map Prod.snd

end Sorting

section SortedBy

variable {Entity : Type} {Value : Text → Type} [∀ name, LinearOrder (Value name)]
  (getattr : (name : Text) → Entity → Option (Value name))

/-- `attrgetter(name)`, where an entity may have no attribute of that name. -/
def attrgetter (name : Text) (entity : Entity) : Except OrderingError (Value name) :=
  match getattr name entity with
  | some value => .ok value
  | none => .error (.attributeError name)

/-- One pass of `_sorted_by`. -/
def sortPass (items : List Entity) : Field → Except OrderingError (List Entity)
  | .str field => sorted items (attrgetter getattr (attributeOf field)) (descending field)
  | .other repr => .error (.typeError (orderByError repr))

/-- `_sorted_by`. -/
def sortedBy (items : List Entity) (ordering : OrderBy) : Except OrderingError (List Entity) := do
  let fields ← ordering.fields
  fields.reverse.foldlM (sortPass getattr) items

end SortedBy

/-! ## The repository -/

section Repository

variable {Entity Id : Type} [DecidableEq Id]

/-- The place a bound of a slice stands for. -/
def placeOf (length : ℕ) (bound : ℤ) : ℕ :=
  if bound < 0 then (bound + length).toNat else min bound.toNat length

/-- `items[start:stop]`. -/
def sliceOf (items : List Entity) (start stop : ℤ) : List Entity :=
  (items.take (placeOf items.length stop)).drop (placeOf items.length start)

/-- `InMemoryRepository`: every id has one entity. -/
structure InMemoryRepository (Entity Id : Type) where
  idOf : Entity → Id
  items : List (Id × Entity) := []
  defaultOrderBy : Option OrderBy := none
  nodup : (items.map Prod.fst).Nodup := by exact List.nodup_nil

namespace InMemoryRepository

/-- `create`, and `update` as well. -/
def create (repo : InMemoryRepository Entity Id) (entity : Entity) :
    InMemoryRepository Entity Id :=
  { repo with
    items := assign (repo.idOf entity) entity repo.items
    nodup := nodup_assign repo.nodup }

/-- `list(self._items.values())`. -/
def values (repo : InMemoryRepository Entity Id) : List Entity := repo.items.map Prod.snd

/-- The ordering that a call of `get_list` uses. -/
def ordering (repo : InMemoryRepository Entity Id) (orderBy : Option OrderBy) : Option OrderBy :=
  orderBy <|> repo.defaultOrderBy

variable {Value : Text → Type} [∀ name, LinearOrder (Value name)]
  (getattr : (name : Text) → Entity → Option (Value name))

/-- `get_list`. -/
def getList (repo : InMemoryRepository Entity Id) (limit offset : ℤ) (orderBy : Option OrderBy) :
    Except OrderingError (List Entity) := do
  let items ←
    match repo.ordering orderBy with
    | some ordering => sortedBy getattr repo.values ordering
    | none => .ok repo.values
  return sliceOf items offset (offset + limit)

end InMemoryRepository

end Repository

/-! ## What an ordering asks for -/

section Orders

variable {Entity : Type} {Value : Text → Type} [∀ name, LinearOrder (Value name)]
  (key : (name : Text) → Entity → Value name)

/-- The field puts the first entity before the second one. -/
def Puts (field : Text) (a b : Entity) : Prop :=
  if descending field then key (attributeOf field) b < key (attributeOf field) a
  else key (attributeOf field) a < key (attributeOf field) b

/-- The entities are equal in the attribute of the field. -/
def Equal (field : Text) (a b : Entity) : Prop :=
  key (attributeOf field) a = key (attributeOf field) b

instance (field : Text) (a b : Entity) : Decidable (Equal key field a b) :=
  inferInstanceAs (Decidable (_ = _))

/-- The first entity may stand before the second: the first field in which they are not equal
puts it there, if there is one. -/
def InOrder : List Text → Entity → Entity → Prop
  | [], _, _ => True
  | field :: rest, a, b => Puts key field a b ∨ Equal key field a b ∧ InOrder rest a b

/-- A list of entities, ordered by these fields: rearranged and in order, where the entities that
are equal to any one of them in every field stand in the order of insertion. -/
structure Ordered (fields : List Text) (items result : List Entity) : Prop where
  perm : result.Perm items
  inOrder : result.Pairwise (InOrder key fields)
  stable : ∀ a, result.filter (fun b => ∀ field ∈ fields, Equal key field a b)
    = items.filter (fun b => ∀ field ∈ fields, Equal key field a b)

/-! ## The comparisons of the passes -/

/-- The comparison by one field. -/
def byField (field : Text) : Comparison Entity :=
  if descending field then (Comparison.onKey (key (attributeOf field))).reversed
  else Comparison.onKey (key (attributeOf field))

/-- The comparison by all of the fields. -/
def byFields : List Text → Comparison Entity
  | [] => .trivial
  | field :: rest => (byField key field).thenBy (byFields rest)

theorem le_byField {field : Text} {a b : Entity} :
    (byField key field).le a b = true ↔ Puts key field a b ∨ Equal key field a b := by
  rw [byField, Puts]
  split
  · exact decide_eq_true_iff.trans (le_iff_lt_or_eq.trans (or_congr_right eq_comm))
  · exact decide_eq_true_iff.trans le_iff_lt_or_eq

theorem le_byField_back {field : Text} {a b : Entity} :
    (byField key field).le b a = true ↔ ¬ Puts key field a b := by
  rw [byField, Puts]
  split
  · exact decide_eq_true_iff.trans not_lt.symm
  · exact decide_eq_true_iff.trans not_lt.symm

theorem tied_byField {field : Text} {a b : Entity} :
    (byField key field).tied a b = true ↔ Equal key field a b := by
  rw [byField]
  split
  · rw [Comparison.tied_reversed]
    exact Comparison.tied_onKey
  · exact Comparison.tied_onKey

theorem le_byFields {fields : List Text} {a b : Entity} :
    (byFields key fields).le a b = true ↔ InOrder key fields a b := by
  induction fields with
  | nil => exact iff_of_true rfl trivial
  | cons field rest ih =>
      rw [byFields, Comparison.le_thenBy, le_byField, le_byField_back, not_not, ih, InOrder,
        or_and_left]

theorem tied_byFields {fields : List Text} {a b : Entity} :
    (byFields key fields).tied a b = true ↔ ∀ field ∈ fields, Equal key field a b := by
  induction fields with
  | nil => exact iff_of_true rfl (fun _ member => absurd member List.not_mem_nil)
  | cons field rest ih =>
      rw [byFields, Comparison.tied_thenBy, Bool.and_eq_true, tied_byField, ih,
        List.forall_mem_cons]

end Orders

/-! ## The passes -/

section Passes

variable {Entity Key : Type} [LinearOrder Key]

theorem sorts_sortKeyed (k : Entity → Key) (items : List Entity) (reverse : Bool) :
    Sorts (if reverse then (Comparison.onKey k).reversed else Comparison.onKey k) items
      ((sortKeyed (items.map fun item => (k item, item)) reverse).map Prod.snd) := by
  have bare : ∀ items : List Entity,
      ((items.map fun item => (k item, item)).mergeSort fun a b => !decide (b.1 < a.1)).map Prod.snd
        = items.mergeSort (Comparison.onKey k).le := by
    intro items
    have same : ∀ a ∈ items.map (fun item => (k item, item)),
        ∀ b ∈ items.map (fun item => (k item, item)),
          (!decide (b.1 < a.1)) = (Comparison.onKey k).le a.2 b.2 := by
      intro a first b second
      obtain ⟨x, _, rfl⟩ := List.mem_map.mp first
      obtain ⟨y, _, rfl⟩ := List.mem_map.mp second
      rw [← decide_not]
      exact decide_eq_decide.mpr not_lt
    rw [List.map_mergeSort same, List.map_map]
    exact congrArg (fun items => items.mergeSort (Comparison.onKey k).le) (List.map_id items)
  cases reverse with
  | false =>
      simp only [sortKeyed, Bool.false_eq_true, if_false, bare]
      exact sorts_mergeSort _ items
  | true =>
      have backwards := (sorts_mergeSort (Comparison.onKey k) items.reverse).reverse
      rw [List.reverse_reverse] at backwards
      rw [sortKeyed, if_pos rfl, if_pos rfl, ← List.map_reverse (l := items),
        List.map_reverse (f := Prod.snd), bare]
      exact backwards

/-- One call of Python's `sorted`. -/
theorem sorts_sorted {key : Entity → Except OrderingError Key} {k : Entity → Key}
    {items : List Entity} (has : ∀ item ∈ items, key item = .ok (k item)) (reverse : Bool) :
    ∃ result, sorted items key reverse = .ok result ∧
      Sorts (if reverse then (Comparison.onKey k).reversed else Comparison.onKey k) items
        result := by
  have keyed : (items.mapM fun item => (key item).map fun value => (value, item))
      = .ok (items.map fun item => (k item, item)) := by
    apply Outcome.mapM_eq_ok
    intro item member
    rw [has item member]
    rfl
  refine ⟨_, ?_, sorts_sortKeyed k items reverse⟩
  rw [sorted, keyed]
  rfl

end Passes

section Fields

variable {Entity : Type} {Value : Text → Type} [∀ name, LinearOrder (Value name)]
  {getattr : (name : Text) → Entity → Option (Value name)}
  {key : (name : Text) → Entity → Value name}

/-- One pass sorts by one field. -/
theorem sorts_sortPass {field : Text} {items : List Entity}
    (has : ∀ item ∈ items, getattr (attributeOf field) item = some (key (attributeOf field) item)) :
    ∃ result, sortPass getattr items (.str field) = .ok result ∧
      Sorts (byField key field) items result := by
  refine sorts_sorted (fun item member => ?_) (descending field)
  rw [attrgetter, has item member]

/-- **The passes sort by all of the fields**, by induction on them: the pass for the first field
is the last one, over what the passes for the others have sorted. -/
theorem sorts_passes {fields : List Text} {items : List Entity}
    (has : ∀ field ∈ fields, ∀ item ∈ items,
      getattr (attributeOf field) item = some (key (attributeOf field) item)) :
    ∃ result, (fields.map Field.str).reverse.foldlM (sortPass getattr) items = .ok result ∧
      Sorts (byFields key fields) items result := by
  simp only [List.foldlM_reverse]
  induction fields with
  | nil => exact ⟨items, rfl, sorts_trivial items⟩
  | cons field rest ih =>
      rw [List.forall_mem_cons] at has
      obtain ⟨middle, passed, minor⟩ := ih has.2
      have kept : ∀ item ∈ middle,
          getattr (attributeOf field) item = some (key (attributeOf field) item) :=
        fun item member => has.1 item (minor.perm.mem_iff.mp member)
      obtain ⟨result, last, major⟩ := sorts_sortPass kept
      refine ⟨result, ?_, minor.thenBy major⟩
      rw [List.map_cons, List.foldrM_cons, passed]
      exact last

theorem ordered_of_sorts {fields : List Text} {items result : List Entity}
    (sorts : Sorts (byFields key fields) items result) : Ordered key fields items result := by
  refine ⟨sorts.perm, sorts.ordered.imp (le_byFields key).mp, ?_⟩
  intro a
  have same : (byFields key fields).tied a
      = fun b => decide (∀ field ∈ fields, Equal key field a b) := by
    funext b
    rw [Bool.eq_iff_iff, tied_byFields, decide_eq_true_iff]
  rw [← same]
  exact sorts.stable a

/-- **`_sorted_by` orders by its fields.** -/
theorem ordered_sortedBy {fields : List Text} {ordering : OrderBy}
    (named : ordering.fields = .ok (fields.map Field.str)) {items : List Entity}
    (has : ∀ field ∈ fields, ∀ item ∈ items,
      getattr (attributeOf field) item = some (key (attributeOf field) item)) :
    ∃ result, sortedBy getattr items ordering = .ok result ∧ Ordered key fields items result := by
  obtain ⟨result, passed, sorts⟩ := sorts_passes has
  refine ⟨result, ?_, ordered_of_sorts sorts⟩
  rw [sortedBy, named]
  exact passed

/-- **Nothing is ignored**: what is not made of names alone does not order anything. -/
theorem named_of_sortedBy {ordering : OrderBy} {items result : List Entity}
    (sorted : sortedBy getattr items ordering = .ok result) :
    ∃ fields : List Text, ordering.fields = .ok (fields.map Field.str) := by
  obtain ⟨given, parts, passed⟩ := Outcome.bind_eq_ok.mp sorted
  rw [parts]
  rw [List.foldlM_reverse] at passed
  clear parts sorted
  induction given generalizing result with
  | nil => exact ⟨[], rfl⟩
  | cons field rest ih =>
      rw [List.foldrM_cons] at passed
      obtain ⟨middle, others, pass⟩ := Outcome.bind_eq_ok.mp passed
      obtain ⟨fields, same⟩ := ih others
      cases field with
      | str name =>
          obtain rfl := Except.ok.inj same
          exact ⟨name :: fields, rfl⟩
      | other repr => cases pass

end Fields

/-! ## The pages -/

section Pages

variable {Entity Id : Type} {Value : Text → Type} [∀ name, LinearOrder (Value name)]
  {getattr : (name : Text) → Entity → Option (Value name)}
  {key : (name : Text) → Entity → Value name}

theorem placeOf_natCast (length n : ℕ) : placeOf length n = min n length := by
  rw [placeOf, if_neg (by omega), Int.toNat_natCast]

/-- A page is a slice. -/
theorem sliceOf_eq (items : List Entity) (size n : ℕ) :
    sliceOf items (n * size : ℕ) ((n * size : ℕ) + size) = Slices.slice size items n := by
  have stop : ((n * size : ℕ) : ℤ) + size = (n * size + size : ℕ) := rfl
  rw [sliceOf, stop, placeOf_natCast, placeOf_natCast, ← List.take_eq_take_min, Slices.slice]
  rcases Nat.le_total (n * size) items.length with inside | beyond
  · rw [Nat.min_eq_left inside, List.drop_take, Nat.add_sub_cancel_left]
  · rw [Nat.min_eq_right beyond, List.drop_eq_nil_of_le beyond, List.take_nil]
    exact List.drop_eq_nil_of_le (List.length_take_le' _ _)

namespace InMemoryRepository

variable {repo : InMemoryRepository Entity Id} {orderBy : Option OrderBy} {ordering : OrderBy}
  {result : List Entity}

theorem getList_eq (chosen : repo.ordering orderBy = some ordering)
    (sorted : sortedBy getattr repo.values ordering = .ok result) (size n : ℕ) :
    repo.getList getattr size (n * size : ℕ) orderBy = .ok (Slices.slice size result n) := by
  simp only [getList, chosen, sorted]
  exact congrArg Except.ok (sliceOf_eq result size n)

end InMemoryRepository

/-- **Ordering and pages.** For every list of entities that have the attributes, and every
ordering made of names, `_sorted_by` returns the list ordered by these fields, and so do the pages
of `get_list` together, for every limit from one on, in a repository that holds the list and uses
this ordering. -/
theorem getList_sorts {items : List Entity} {ordering : OrderBy} {fields : List Text}
    (named : ordering.fields = .ok (fields.map Field.str))
    (has : ∀ field ∈ fields, ∀ item ∈ items,
      getattr (attributeOf field) item = some (key (attributeOf field) item)) :
    ∃ result, sortedBy getattr items ordering = .ok result ∧ Ordered key fields items result ∧
      ∀ (repo : InMemoryRepository Entity Id) (orderBy : Option OrderBy),
        repo.values = items → repo.ordering orderBy = some ordering →
        ∀ limit : ℤ, 1 ≤ limit → ∀ calls : ℕ, items.length ≤ calls * limit →
          ∃ pages, ((List.range calls).mapM fun n : ℕ => repo.getList getattr limit (n * limit)
            orderBy) = .ok pages ∧ pages.flatten = result := by
  obtain ⟨result, sorted, ordered⟩ := ordered_sortedBy named has
  refine ⟨result, sorted, ordered, ?_⟩
  rintro repo orderBy rfl chosen limit positive calls enough
  obtain ⟨size, rfl⟩ := Int.eq_ofNat_of_zero_le (show 0 ≤ limit by omega)
  refine ⟨(List.range calls).map (Slices.slice size result), ?_, ?_⟩
  · refine Outcome.mapM_eq_ok fun n _ => ?_
    exact InMemoryRepository.getList_eq chosen sorted size n
  · rw [← List.flatMap_def, Slices.flatMap_slice, List.take_of_length_le]
    rw [ordered.perm.length_eq]
    exact_mod_cast enough

end Pages

/-! ## Rows -/

structure Row where
  id : ℕ
  group : ℕ
  name : ℕ

def Row.key (name : Text) (row : Row) : ℕ :=
  if name = "group".toList then row.group
  else if name = "name".toList then row.name
  else row.id

def Row.getattr (name : Text) (row : Row) : Option ℕ :=
  if name = "id".toList ∨ name = "group".toList ∨ name = "name".toList then some (row.key name)
  else none

/-- Four rows, two of which are equal in group and name. -/
def rows : List Row := [⟨1, 2, 26⟩, ⟨2, 1, 25⟩, ⟨3, 1, 24⟩, ⟨4, 1, 25⟩]

def rowFields : List Text := ["group".toList, "-name".toList]

/-- A repository in which the rows have been created. -/
def rowRepository : InMemoryRepository Row ℕ :=
  rows.foldl InMemoryRepository.create
    { idOf := Row.id, defaultOrderBy := some (.sequence (rowFields.map Field.str)) }

/-- **By group, and downwards by name**: of the two that are equal, the first one comes first. -/
theorem getList_sorts_rows :
    ∃ result pages, sortedBy Row.getattr rows (.sequence (rowFields.map Field.str)) = .ok result ∧
      Ordered Row.key rowFields rows result ∧
      ((List.range 2).mapM fun n : ℕ => rowRepository.getList Row.getattr 3 (n * 3) none)
        = .ok pages ∧ pages.flatten = result ∧ result.map Row.id = [2, 4, 3, 1] := by
  have has : ∀ field ∈ rowFields, ∀ item ∈ rows,
      Row.getattr (attributeOf field) item = some (Row.key (attributeOf field) item) := by
    simp [rowFields, rows, Row.getattr, attributeOf, descending]
  have run : sortedBy Row.getattr rows (.sequence (rowFields.map Field.str))
      = .ok [⟨2, 1, 25⟩, ⟨4, 1, 25⟩, ⟨3, 1, 24⟩, ⟨1, 2, 26⟩] := by
    simp [sortedBy, OrderBy.fields, rowFields, rows, sortPass, sorted, sortKeyed, attrgetter,
      Row.getattr, Row.key, attributeOf, descending, List.mergeSort,
      List.MergeSort.Internal.splitInTwo, bind, Except.bind, pure, Except.pure, Except.map]
  obtain ⟨result, sorted, ordered, paged⟩ :=
    @getList_sorts Row ℕ _ _ Row.getattr Row.key rows (.sequence (rowFields.map Field.str))
      rowFields rfl has
  obtain ⟨pages, called, whole⟩ := paged rowRepository none rfl rfl 3 (by decide) 2 (by decide)
  obtain rfl := Except.ok.inj (run.symm.trans sorted)
  exact ⟨_, pages, sorted, ordered, called, whole, rfl⟩

end PyCommon.Fakes
