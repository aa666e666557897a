import PyCommon.Testing.Fakes

/-!
# Histories of the in-memory repository

`InMemoryRepository` over the life of a test: entities are created, updated, deleted and looked
up in any order. `create` and `update` do the same, so an update of an entity that is not there
creates it, and a create of one that is there replaces it where it stands.

After every history a call is answered from the last write to the same id alone, and a list in
pages of any size, if no ordering is asked for, is what is there in the order in which it came
(`answers_of_history`).
-/

set_option autoImplicit false

namespace PyCommon.Fakes

open Dictionaries

variable {Entity Id : Type} [DecidableEq Id]

/-! ## The other methods -/

namespace InMemoryRepository

/-- `get`. -/
def get (repo : InMemoryRepository Entity Id) (id : Id) : Option Entity :=
  Dictionaries.get id repo.items

theorem nodup_written (repo : InMemoryRepository Entity Id) (entity : Entity) :
    (keys (assign (repo.idOf entity) entity repo.items)).Nodup := nodup_assign repo.nodup

/-- `update`. -/
def update (repo : InMemoryRepository Entity Id) (entity : Entity) :
    InMemoryRepository Entity Id :=
  { repo with
    items := assign (repo.idOf entity) entity repo.items
    nodup := repo.nodup_written entity }

/-- `delete`, which tells whether `pop` found an entity. -/
def delete (repo : InMemoryRepository Entity Id) (id : Id) :
    InMemoryRepository Entity Id × Bool :=
  ({ repo with items := remove id repo.items, nodup := nodup_remove repo.nodup },
    (repo.get id).isSome)

end InMemoryRepository

/-! ## Histories -/

inductive Call (Entity Id : Type) where
  | create (entity : Entity)
  | get (id : Id)
  | update (entity : Entity)
  | delete (id : Id)

inductive Reply (Entity : Type) where
  | entity (entity : Entity)
  | found (entity : Option Entity)
  | deleted (gone : Bool)
  deriving DecidableEq

/-- A call, with its reply. -/
def InMemoryRepository.call (repo : InMemoryRepository Entity Id) :
    Call Entity Id → InMemoryRepository Entity Id × Reply Entity
  | .create entity => (repo.create entity, .entity entity)
  | .get id => (repo, .found (repo.get id))
  | .update entity => (repo.update entity, .entity entity)
  | .delete id => ((repo.delete id).1, .deleted (repo.delete id).2)

/-- The repository after these calls. -/
def InMemoryRepository.after (repo : InMemoryRepository Entity Id)
    (calls : List (Call Entity Id)) : InMemoryRepository Entity Id :=
  calls.foldl (fun repo call => (repo.call call).1) repo

/-- What a call writes. -/
def Call.write (idOf : Entity → Id) : Call Entity Id → Option (Write Id Entity)
  | .create entity => some (.assign (idOf entity) entity)
  | .get _ => none
  | .update entity => some (.assign (idOf entity) entity)
  | .delete id => some (.remove id)

/-- The writes of a history. -/
def writesOf (idOf : Entity → Id) (calls : List (Call Entity Id)) : List (Write Id Entity) :=
  calls.filterMap (Call.write idOf)

/-- The reply to a call after these writes. -/
def replyAfter (writes : List (Write Id Entity)) : Call Entity Id → Reply Entity
  | .create entity => .entity entity
  | .get id => .found (lastWritten id writes)
  | .update entity => .entity entity
  | .delete id => .deleted (lastWritten id writes).isSome

section Histories

variable {idOf : Entity → Id} {defaultOrderBy : Option OrderBy} {calls : List (Call Entity Id)}

/-- A repository in which nothing has been created. -/
def fresh (idOf : Entity → Id) (defaultOrderBy : Option OrderBy) : InMemoryRepository Entity Id :=
  { idOf, defaultOrderBy }

theorem idOf_after : ((fresh idOf defaultOrderBy).after calls).idOf = idOf := by
  induction calls using List.reverseRecOn with
  | nil => rfl
  | append_singleton calls call ih =>
      rw [InMemoryRepository.after, List.foldl_concat]
      cases call <;> exact ih

theorem ordering_after {orderBy : Option OrderBy} :
    ((fresh idOf defaultOrderBy).after calls).ordering orderBy = (orderBy <|> defaultOrderBy) := by
  induction calls using List.reverseRecOn with
  | nil => rfl
  | append_singleton calls call ih =>
      rw [InMemoryRepository.after, List.foldl_concat]
      cases call <;> exact ih

theorem items_after :
    ((fresh idOf defaultOrderBy).after calls).items = Dictionaries.after (writesOf idOf calls) := by
  induction calls using List.reverseRecOn with
  | nil => rfl
  | append_singleton calls call ih =>
      rw [InMemoryRepository.after, List.foldl_concat, ← InMemoryRepository.after, writesOf,
        List.filterMap_append, ← writesOf]
      have placed (entity : Entity) :
          assign (((fresh idOf defaultOrderBy).after calls).idOf entity) entity
              ((fresh idOf defaultOrderBy).after calls).items =
            Write.apply ((fresh idOf defaultOrderBy).after calls).items
              (.assign (idOf entity) entity) := by
        rw [idOf_after]
        rfl
      cases call with
      | create entity =>
          rw [Dictionaries.after, List.filterMap_cons, Call.write, List.filterMap_nil,
            List.foldl_concat, ← Dictionaries.after, ← ih]
          exact placed entity
      | get id =>
          rw [List.filterMap_cons, Call.write, List.filterMap_nil, List.append_nil]
          exact ih
      | update entity =>
          rw [Dictionaries.after, List.filterMap_cons, Call.write, List.filterMap_nil,
            List.foldl_concat, ← Dictionaries.after, ← ih]
          exact placed entity
      | delete id =>
          rw [Dictionaries.after, List.filterMap_cons, Call.write, List.filterMap_nil,
            List.foldl_concat, ← Dictionaries.after, ← ih]
          rfl

theorem reply_after (call : Call Entity Id) :
    (((fresh idOf defaultOrderBy).after calls).call call).2 =
      replyAfter (writesOf idOf calls) call := by
  have got (id : Id) : ((fresh idOf defaultOrderBy).after calls).get id =
      lastWritten id (writesOf idOf calls) := by
    rw [InMemoryRepository.get, items_after, get_after]
  cases call with
  | create entity => rfl
  | get id => exact congrArg Reply.found (got id)
  | update entity => rfl
  | delete id => exact congrArg (fun found : Option Entity => Reply.deleted found.isSome) (got id)

/-- What is listed without an ordering. -/
theorem values_after_history :
    ((fresh idOf defaultOrderBy).after calls).values.map some =
      (arrivals (writesOf idOf calls)).map fun id => lastWritten id (writesOf idOf calls) := by
  rw [← values_after, InMemoryRepository.values, items_after, List.map_map]
  rfl

variable {Value : Text → Type} [∀ name, LinearOrder (Value name)]
  {getattr : (name : Text) → Entity → Option (Value name)}

omit [DecidableEq Id] in
theorem getList_unordered {repo : InMemoryRepository Entity Id}
    (unordered : repo.ordering none = none) (size n : ℕ) :
    repo.getList getattr size (n * size : ℕ) none = .ok (Slices.slice size repo.values n) := by
  simp only [InMemoryRepository.getList, unordered]
  exact congrArg Except.ok (sliceOf_eq repo.values size n)

/-- **The repository after a history of calls.** A call is answered from the last write to its id
alone. Without an ordering, the pages of every size list the entities that are there, each as it
was last written, in the order in which their ids came. -/
theorem answers_of_history {limit : ℤ} (positive : 1 ≤ limit) {count : ℕ}
    (enough : (arrivals (writesOf idOf calls)).length ≤ count * limit) :
    (∀ call, (((fresh idOf none).after calls).call call).2 =
        replyAfter (writesOf idOf calls) call) ∧
      ∃ pages, ((List.range count).mapM fun n : ℕ =>
          ((fresh idOf none).after calls).getList getattr limit (n * limit) none) = .ok pages ∧
        pages.flatten.map some =
          (arrivals (writesOf idOf calls)).map fun id => lastWritten id (writesOf idOf calls) := by
  refine ⟨reply_after, ?_⟩
  obtain ⟨size, rfl⟩ := Int.eq_ofNat_of_zero_le (show 0 ≤ limit by omega)
  refine ⟨(List.range count).map (Slices.slice size ((fresh idOf none).after calls).values), ?_, ?_⟩
  · exact Outcome.mapM_eq_ok fun n _ => getList_unordered ordering_after size n
  · rw [← List.flatMap_def, Slices.flatMap_slice, List.take_of_length_le]
    · exact values_after_history
    · have whole := congrArg List.length (@values_after_history Entity Id _ idOf none calls)
      rw [List.length_map, List.length_map] at whole
      rw [whole]
      exact_mod_cast enough

end Histories

/-! ## A history of rows -/

/-- Rows that come, change and go: the second is deleted and comes back. -/
def rowCalls : List (Call Row ℕ) :=
  [.create ⟨1, 2, 26⟩, .create ⟨2, 1, 25⟩, .update ⟨3, 1, 24⟩, .update ⟨1, 5, 26⟩, .delete 2,
    .create ⟨2, 7, 25⟩, .delete 9]

/-- The rows stand in the order 1, 3, 2, and the first one is as it was updated. -/
theorem answers_of_rowCalls :
    (∀ call, (((fresh Row.id none).after rowCalls).call call).2 =
        replyAfter (writesOf Row.id rowCalls) call) ∧
      ∃ pages, ((List.range 2).mapM fun n : ℕ =>
          ((fresh Row.id none).after rowCalls).getList Row.getattr 2 (n * 2) none) = .ok pages ∧
        pages.flatten.map some = [some ⟨1, 5, 26⟩, some ⟨3, 1, 24⟩, some ⟨2, 7, 25⟩] :=
  answers_of_history (by decide) (by decide)

end PyCommon.Fakes
