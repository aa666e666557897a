import Mathlib.Data.List.Nodup
import Mathlib.Data.List.Perm.Subperm
import Mathlib.Data.Rat.Defs
import PyCommon.Lib.PythonJson

/-!
# Equality of Python values, and JSON

Python's `==` on values: `True`, `1` and `1.0` are equal, a NaN is not equal to itself, a tuple
is equal to no list, and the order of the items of a dictionary does not matter. The number that
a finite float is, is a parameter.

A value that went through JSON is equal to what it was exactly if it is faithful
(`reread_equal_iff`): it holds no tuple and no NaN, its keys are strings, no string in it holds
the two halves of a surrogate pair side by side, and it is nested no deeper than the reader goes.
-/

set_option autoImplicit false

namespace Python

open CodePoints (Text code text)
open Outcome (bind_eq_ok)

/-! ## Equality -/

section Equality

variable (worth : Floating → ℚ)

/-- The number that a value is, if it is a finite one. -/
def number : Value → Option ℚ
  | .bool b => some (if b then 1 else 0)
  | .int n => some n
  | .float x => if x.repr ∈ infinities then none else some (worth x)
  | _ => none

/-- Finite numbers are compared by what they are; an infinity is equal to itself. -/
def SameNumber (v w : Value) : Prop :=
  (∃ q, number worth v = some q ∧ number worth w = some q)
    ∨ ∃ x, v = .float x ∧ w = .float x ∧ x.repr ∈ infinities ∧ x.repr ≠ text "nan"

mutual
/-- `==`. -/
def Equal : Value → Value → Prop
  | .none, w => w = .none
  | .str content, w => w = .str content
  | .bytes raw, w => w = .bytes raw
  | .tuple items, w => match w with
      | .tuple others => EqualItems items others
      | _ => False
  | .list items, w => match w with
      | .list others => EqualItems items others
      | _ => False
  | .dict items, w => match w with
      | .dict others => items.length = others.length ∧ EqualPairs items others
      | _ => False
  | v, w => SameNumber worth v w

def EqualItems : List Value → List Value → Prop
  | [], others => others = []
  | item :: rest, others => match others with
      | [] => False
      | other :: others => Equal item other ∧ EqualItems rest others

/-- Each item is one of the others, in any order. -/
def EqualPairs : List (Value × Value) → List (Value × Value) → Prop
  | [], _ => True
  | (key, value) :: rest, others =>
      (∃ other ∈ others, Equal key other.1 ∧ Equal value other.2) ∧ EqualPairs rest others
end

mutual
/-- In every dictionary the keys are different, as they are in Python. -/
def Distinct : Value → Prop
  | .tuple items | .list items => DistinctItems items
  | .dict items => items.Pairwise (fun first second => ¬ Equal worth first.1 second.1)
      ∧ DistinctPairs items
  | _ => True

def DistinctItems : List Value → Prop
  | [] => True
  | item :: rest => Distinct item ∧ DistinctItems rest

def DistinctPairs : List (Value × Value) → Prop
  | [] => True
  | (_, value) :: rest => Distinct value ∧ DistinctPairs rest
end

end Equality

/-! ## Values that JSON keeps -/

mutual
/-- The value survives JSON, of which containers are read at most `room` deep. -/
def Faithful (room : ℕ) : Value → Prop
  | .float x => x.repr ≠ text "nan"
  | .str content => CodePoints.Apart content.points
  | .tuple _ | .bytes _ => False
  | .list items => match room with
      | 0 => False
      | room + 1 => FaithfulItems room items
  | .dict items => match room with
      | 0 => False
      | room + 1 => FaithfulPairs room items
  | _ => True

def FaithfulItems (room : ℕ) : List Value → Prop
  | [] => True
  | item :: rest => Faithful room item ∧ FaithfulItems room rest

def FaithfulPairs (room : ℕ) : List (Value × Value) → Prop
  | [] => True
  | (key, value) :: rest => (∃ content : Str, key = .str content ∧ CodePoints.Apart content.points)
      ∧ Faithful room value ∧ FaithfulPairs room rest
end

/-! ## From JSON to Python -/

/-- The string of code points that a reader gives, all of them below `0x110000`. -/
def strOf (content : Text) : Str :=
  ⟨content.filter fun c => c < 0x110000,
    fun _ member => of_decide_eq_true (List.mem_filter.mp member).2⟩

section Conversion

variable (float : Text → Floating)

mutual
/-- The Python value of a JSON value, given the float of a `repr`. -/
def ofJson : Json.Value → Value
  | .null => .none
  | .bool b => .bool b
  | .int n => .int n
  | .float repr => .float (float repr)
  | .str content => .str (strOf content)
  | .list items => .list (ofJsonItems items)
  | .dict members => .dict (ofJsonMembers members)

def ofJsonItems : List Json.Value → List Value
  | [] => []
  | item :: rest => ofJson item :: ofJsonItems rest

def ofJsonMembers : List (Text × Json.Value) → List (Value × Value)
  | [] => []
  | (name, value) :: rest => (.str (strOf name), ofJson value) :: ofJsonMembers rest
end

end Conversion

theorem strOf_points {content : Text} (valid : ∀ c ∈ content, c < 0x110000) :
    (strOf content).points = content := by
  refine List.filter_eq_self.mpr fun c member => ?_
  exact decide_eq_true (valid c member)

theorem ofJsonMembers_eq_map (float : Text → Floating) (members : List (Text × Json.Value)) :
    ofJsonMembers float members =
      members.map fun member => (.str (strOf member.1), ofJson float member.2) := by
  induction members with
  | nil => rfl
  | cons member members ih => rw [ofJsonMembers, ih, List.map_cons]

/-! ## The members of an object -/

section Members

variable {found members : List (Text × Json.Value)}

theorem length_setMember_le (found : List (Text × Json.Value)) (name : Text) (value : Json.Value) :
    (Json.setMember name value found).length ≤ found.length + 1 := by
  induction found with
  | nil => exact Nat.le_refl 1
  | cons member found ih =>
      rw [Json.setMember]
      split
      · exact Nat.le_succ _
      · exact Nat.succ_le_succ ih

theorem setMember_of_notMem {name : Text} (fresh : name ∉ found.map Prod.fst) (value : Json.Value) :
    Json.setMember name value found = found ++ [(name, value)] := by
  induction found with
  | nil => rfl
  | cons member found ih =>
      rw [List.map_cons, List.mem_cons, not_or] at fresh
      rw [Json.setMember, if_neg (fun same => fresh.1 same.symm), ih fresh.2, List.cons_append]

theorem length_setMember_of_mem {name : Text} (known : name ∈ found.map Prod.fst)
    (value : Json.Value) : (Json.setMember name value found).length = found.length := by
  induction found with
  | nil => cases known
  | cons member found ih =>
      rw [Json.setMember]
      split
      · rfl
      · rename_i other
        rw [List.map_cons, List.mem_cons] at known
        rw [List.length_cons, ih (known.resolve_left fun same => other same.symm), List.length_cons]

theorem length_setAll_le (found members : List (Text × Json.Value)) :
    (setAll found members).length ≤ found.length + members.length := by
  induction members generalizing found with
  | nil => exact Nat.le_refl _
  | cons member members ih =>
      have one := length_setMember_le found member.1 member.2
      have rest := ih (Json.setMember member.1 member.2 found)
      rw [List.length_cons]
      exact rest.trans (by omega)

/-- Members of new and different names are added one after the other. -/
theorem setAll_of_nodup (nodup : (members.map Prod.fst).Nodup)
    (fresh : ∀ name ∈ members.map Prod.fst, name ∉ found.map Prod.fst) :
    setAll found members = found ++ members := by
  induction members generalizing found with
  | nil => exact (List.append_nil found).symm
  | cons member members ih =>
      obtain ⟨other, later⟩ := List.nodup_cons.mp nodup
      have first := setMember_of_notMem (fresh member.1 List.mem_cons_self) member.2
      have rest : setAll (found ++ [member]) members = found ++ [member] ++ members := by
        refine ih later fun name inside => ?_
        rw [List.map_append, List.mem_append, not_or]
        refine ⟨fresh name (List.mem_cons_of_mem _ inside), ?_⟩
        rw [List.map_cons, List.map_nil, List.mem_singleton]
        rintro rfl
        exact other inside
      calc setAll found (member :: members)
          = setAll (Json.setMember member.1 member.2 found) members := rfl
        _ = found ++ member :: members := by rw [first, rest, List.append_assoc]; rfl

/-- No member is lost only if all names are new and different. -/
theorem nodup_of_length_setAll
    (kept : (setAll found members).length = found.length + members.length) :
    (members.map Prod.fst).Nodup ∧ ∀ name ∈ members.map Prod.fst, name ∉ found.map Prod.fst := by
  induction members generalizing found with
  | nil => exact ⟨List.nodup_nil, fun _ member => absurd member List.not_mem_nil⟩
  | cons member members ih =>
      have whole : setAll found (member :: members)
          = setAll (Json.setMember member.1 member.2 found) members := rfl
      have bound := length_setAll_le (Json.setMember member.1 member.2 found) members
      rw [whole, List.length_cons] at kept
      by_cases known : member.1 ∈ found.map Prod.fst
      · rw [length_setMember_of_mem known] at bound
        omega
      · have set := setMember_of_notMem known member.2
        rw [set] at kept
        obtain ⟨nodup, fresh⟩ := ih (kept.trans (by simp; omega))
        refine ⟨List.nodup_cons.mpr ⟨fun inside => ?_, nodup⟩, ?_⟩
        · have other := fresh member.1 inside
          simp at other
        · rw [List.map_cons, List.forall_mem_cons]
          refine ⟨known, fun name inside => ?_⟩
          have other := fresh name inside
          rw [List.map_append, List.mem_append, not_or] at other
          exact other.1

end Members

/-! ## What comes back -/

section Kept

variable {worth : Floating → ℚ}

mutual
/-- A faithful value is equal to itself. -/
theorem equal_self : ∀ (value : Value) {room : ℕ}, Faithful room value → Equal worth value value
  | .none, _, _ => rfl
  | .bool b, _, _ => Or.inl ⟨_, rfl, rfl⟩
  | .int n, _, _ => Or.inl ⟨_, rfl, rfl⟩
  | .float x, _, faithful => by
      by_cases infinite : x.repr ∈ infinities
      · exact Or.inr ⟨x, rfl, rfl, infinite, faithful⟩
      · exact Or.inl ⟨worth x, if_neg infinite, if_neg infinite⟩
  | .str content, _, _ => rfl
  | .bytes raw, _, faithful => faithful.elim
  | .tuple items, _, faithful => faithful.elim
  | .list items, 0, faithful => faithful.elim
  | .list items, room + 1, faithful => equalItems_self items faithful
  | .dict items, 0, faithful => faithful.elim
  | .dict items, room + 1, faithful =>
      ⟨rfl, equalPairs_self items faithful items fun _ member => member⟩

theorem equalItems_self : ∀ (items : List Value) {room : ℕ}, FaithfulItems room items →
    EqualItems worth items items
  | [], _, _ => rfl
  | item :: items, _, faithful => ⟨equal_self item faithful.1, equalItems_self items faithful.2⟩

theorem equalPairs_self : ∀ (items : List (Value × Value)) {room : ℕ}, FaithfulPairs room items →
    ∀ others : List (Value × Value), (∀ item ∈ items, item ∈ others) →
      EqualPairs worth items others
  | [], _, _, _, _ => trivial
  | (key, value) :: items, room, faithful, others, inside => by
      obtain ⟨⟨content, rfl, -⟩, kept, later⟩ := faithful
      refine ⟨⟨(.str content, value), inside _ List.mem_cons_self, rfl, equal_self value kept⟩, ?_⟩
      exact equalPairs_self items later others fun item member =>
        inside item (List.mem_cons_of_mem _ member)
end

variable {float : Text → Floating} {limit : ℕ}

theorem Str.eq_of_points {first second : Str} (same : first.points = second.points) :
    first = second := by
  cases first
  cases second
  cases same
  rfl

theorem strOf_joinPairs {content : Str} (apart : CodePoints.Apart content.points) :
    strOf (CodePoints.joinPairs content.points) = content := by
  have same := (CodePoints.joinPairs_eq_self_iff content.points).mpr apart
  rw [same]
  exact Str.eq_of_points (strOf_points content.valid)

/-- Names of different keys are different. -/
theorem nodup_of_distinct {members : List (Text × Json.Value)} {items : List (Value × Value)}
    (same : ofJsonMembers float members = items)
    (distinct : items.Pairwise fun first second => ¬ Equal worth first.1 second.1) :
    (members.map Prod.fst).Nodup := by
  rw [← same, ofJsonMembers_eq_map, List.pairwise_map] at distinct
  refine List.pairwise_map.mpr (distinct.imp fun different same => different ?_)
  rw [same]
  rfl

mutual
/-- **A faithful value comes back as it was.** -/
theorem reread_of_faithful (float_repr : ∀ x : Floating, float x.repr = x) :
    ∀ (value : Value) {room : ℕ}, Faithful room value → Distinct worth value →
      ∃ back, reread limit room value = .ok back ∧ ofJson float back = value
  | .none, _, _, _ => ⟨.null, rfl, rfl⟩
  | .bool b, _, _, _ => ⟨.bool b, rfl, rfl⟩
  | .int n, _, _, _ => ⟨.int n, rfl, rfl⟩
  | .float x, _, _, _ => ⟨.float x.repr, rfl, congrArg Value.float (float_repr x)⟩
  | .str content, _, faithful, _ => ⟨_, rfl, congrArg Value.str (strOf_joinPairs faithful)⟩
  | .bytes raw, _, faithful, _ => faithful.elim
  | .tuple items, _, faithful, _ => faithful.elim
  | .list items, 0, faithful, _ => faithful.elim
  | .list items, room + 1, faithful, distinct => by
      obtain ⟨backs, read, same⟩ := rereadItems_of_faithful float_repr items faithful distinct
      refine ⟨.list backs, ?_, congrArg Value.list same⟩
      rw [reread, read]
      rfl
  | .dict items, 0, faithful, _ => faithful.elim
  | .dict items, room + 1, faithful, distinct => by
      obtain ⟨members, read, same⟩ :=
        rereadPairs_of_faithful float_repr items faithful distinct.2
      have kept : setAll [] members = members :=
        setAll_of_nodup (nodup_of_distinct same distinct.1) fun _ _ => List.not_mem_nil
      refine ⟨.dict members, ?_, congrArg Value.dict same⟩
      rw [reread, read]
      exact congrArg (fun members => Except.ok (Json.Value.dict members)) kept

theorem rereadItems_of_faithful (float_repr : ∀ x : Floating, float x.repr = x) :
    ∀ (items : List Value) {room : ℕ}, FaithfulItems room items → DistinctItems worth items →
      ∃ backs, rereadItems limit room items = .ok backs ∧ ofJsonItems float backs = items
  | [], _, _, _ => ⟨[], rfl, rfl⟩
  | item :: items, room, faithful, distinct => by
      obtain ⟨first, one, same⟩ := reread_of_faithful float_repr item faithful.1 distinct.1
      obtain ⟨later, others, rest⟩ :=
        rereadItems_of_faithful float_repr items faithful.2 distinct.2
      refine ⟨first :: later, ?_, ?_⟩
      · rw [rereadItems, one, others]
        rfl
      · rw [ofJsonItems, same, rest]

theorem rereadPairs_of_faithful (float_repr : ∀ x : Floating, float x.repr = x) :
    ∀ (items : List (Value × Value)) {room : ℕ}, FaithfulPairs room items →
      DistinctPairs worth items →
        ∃ members, rereadPairs limit room items = .ok members ∧ ofJsonMembers float members = items
  | [], _, _, _ => ⟨[], rfl, rfl⟩
  | (key, value) :: items, room, faithful, distinct => by
      obtain ⟨⟨content, rfl, apart⟩, kept, others⟩ := faithful
      obtain ⟨first, one, same⟩ := reread_of_faithful float_repr value kept distinct.1
      obtain ⟨later, more, rest⟩ := rereadPairs_of_faithful float_repr items others distinct.2
      refine ⟨(CodePoints.joinPairs content.points, first) :: later, ?_, ?_⟩
      · simp only [rereadPairs, keyText, one, more]
        rfl
      · rw [ofJsonMembers, same, rest, strOf_joinPairs apart]
end

/-! ## Only faithful values come back -/

theorem rereadPairs_names {items : List (Value × Value)} {room : ℕ}
    {members : List (Text × Json.Value)} (read : rereadPairs limit room items = .ok members) :
    List.Forall₂ (fun item member => ∃ name, keyText limit item.1 = .ok name
        ∧ member.1 = CodePoints.joinPairs name ∧ reread limit room item.2 = .ok member.2)
      items members := by
  induction items generalizing members with
  | nil =>
      cases read
      exact .nil
  | cons item items ih =>
      obtain ⟨key, value⟩ := item
      rw [rereadPairs] at read
      split at read
      · cases read
      · rename_i name named
        obtain ⟨first, one, read⟩ := bind_eq_ok.mp read
        obtain ⟨later, others, result⟩ := bind_eq_ok.mp read
        obtain rfl := Except.ok.inj result
        exact .cons ⟨name, named, rfl, one⟩ (ih others)

theorem equalPairs_iff {items others : List (Value × Value)} :
    EqualPairs worth items others ↔ ∀ item ∈ items, ∃ other ∈ others,
      Equal worth item.1 other.1 ∧ Equal worth item.2 other.2 := by
  induction items with
  | nil => exact ⟨fun _ _ member => absurd member List.not_mem_nil, fun _ => trivial⟩
  | cons item items ih =>
      obtain ⟨key, value⟩ := item
      rw [EqualPairs, ih, List.forall_mem_cons]

/-- A name that was read is made of code points, and its pairs are joined. -/
theorem name_of_read {items : List (Value × Value)} {room : ℕ}
    {members : List (Text × Json.Value)} (read : rereadPairs limit room items = .ok members)
    {member : Text × Json.Value} (inside : member ∈ members) :
    (strOf member.1).points = member.1 ∧ CodePoints.Apart member.1 := by
  obtain ⟨length, aligned⟩ := List.forall₂_iff_zip.mp (rereadPairs_names read)
  obtain ⟨position, bound, rfl⟩ := List.getElem_of_mem inside
  have pair : (items[position], members[position]) ∈ items.zip members :=
    List.mem_of_getElem? (i := position) (by simp [length, bound])
  obtain ⟨name, named, same, -⟩ := aligned pair
  rw [same]
  exact ⟨strOf_points (CodePoints.valid_joinPairs (keyText_valid named)),
    CodePoints.apart_joinPairs name⟩

section Object

variable {items : List (Value × Value)} {members : List (Text × Json.Value)}

/-- The names that were read are different keys. -/
theorem nodup_keys (names : ∀ member ∈ members, (strOf member.1).points = member.1)
    (nodup : (members.map Prod.fst).Nodup) :
    (members.map fun member => Value.str (strOf member.1)).Nodup := by
  refine List.Nodup.map_on (fun first one second other same => ?_) (List.Nodup.of_map _ nodup)
  have points := congrArg Str.points (Value.str.inj same)
  rw [names first one, names second other] at points
  exact List.inj_on_of_nodup_map nodup one other points

/-- As many different names as there are keys, each of them a key: they are the keys. -/
theorem perm_keys (different : (members.map fun member => Value.str (strOf member.1)).Nodup)
    (length : members.length = items.length)
    (found : ∀ member ∈ members, ∃ item ∈ items, item.1 = .str (strOf member.1)) :
    (members.map fun member => Value.str (strOf member.1)).Perm (items.map Prod.fst) := by
  have subset : (members.map fun member => Value.str (strOf member.1)) ⊆ items.map Prod.fst := by
    intro key inside
    obtain ⟨member, one, rfl⟩ := List.mem_map.mp inside
    obtain ⟨item, other, same⟩ := found member one
    exact same ▸ List.mem_map_of_mem other
  refine (List.subperm_of_subset different subset).perm_of_length_le ?_
  rw [List.length_map, List.length_map, length]

end Object

/-- The keys of a dictionary that comes back are strings whose pairs are joined, and their values
come back. -/
theorem aligned_of_equal {items : List (Value × Value)} {room : ℕ}
    {members : List (Text × Json.Value)} (read : rereadPairs limit room items = .ok members)
    (kept : (setAll [] members).length = items.length)
    (equal : EqualPairs worth (ofJsonMembers float (setAll [] members)) items) :
    List.Forall₂ (fun item member => (∃ content : Str, item.1 = .str content
        ∧ CodePoints.Apart content.points) ∧ Equal worth (ofJson float member.2) item.2)
      items members := by
  obtain ⟨length, aligned⟩ := List.forall₂_iff_zip.mp (rereadPairs_names read)
  obtain ⟨nodup, -⟩ := nodup_of_length_setAll (kept.trans (by rw [length]; simp))
  rw [setAll_of_nodup nodup fun _ _ => List.not_mem_nil, List.nil_append, ofJsonMembers_eq_map,
    equalPairs_iff, List.forall_mem_map] at equal
  have names : ∀ member ∈ members, (strOf member.1).points = member.1
      ∧ CodePoints.Apart member.1 := fun _ inside => name_of_read read inside
  have different := nodup_keys (fun member inside => (names member inside).1) nodup
  have perm := perm_keys different length.symm fun member inside => by
    obtain ⟨item, one, same, -⟩ := equal member inside
    exact ⟨item, one, same⟩
  refine List.forall₂_iff_zip.mpr ⟨length, fun {item member} pair => ?_⟩
  obtain ⟨one, other⟩ := List.of_mem_zip pair
  -- The key is one of the names, so its pairs are joined and its name is the key itself.
  obtain ⟨named, inside, key⟩ := List.mem_map.mp (perm.mem_iff.mpr (List.mem_map_of_mem one))
  have apart : CodePoints.Apart (strOf named.1).points := by
    rw [(names named inside).1]
    exact (names named inside).2
  refine ⟨⟨strOf named.1, key.symm, apart⟩, ?_⟩
  obtain ⟨name, named_, same, -⟩ := aligned pair
  rw [← key] at named_
  obtain rfl := Except.ok.inj named_
  obtain ⟨found, among, foundKey, value⟩ := equal member other
  have itself : found.1 = item.1 := by
    rw [foundKey, ← key, same, strOf_joinPairs apart]
  obtain rfl := List.inj_on_of_nodup_map (perm.nodup_iff.mp different) among one itself
  exact value

mutual
/-- **Only a faithful value is equal to what comes back.** -/
theorem faithful_of_equal (float_repr : ∀ x : Floating, float x.repr = x) :
    ∀ (value : Value) {room : ℕ} {back : Json.Value}, reread limit room value = .ok back →
      Equal worth (ofJson float back) value → Faithful room value
  | .none, _, _, _, _ => trivial
  | .bool b, _, _, _, _ => trivial
  | .int n, _, _, _, _ => trivial
  | .float x, _, _, read, equal => by
      cases read
      intro nan
      have infinite : x.repr ∈ infinities := by
        rw [nan]
        decide
      rw [ofJson, float_repr] at equal
      rcases equal with ⟨q, is, -⟩ | ⟨y, same, -, -, other⟩
      · rw [number, if_pos infinite] at is
        cases is
      · cases same
        exact other nan
  | .str content, _, _, read, equal => by
      cases read
      have points := congrArg Str.points (Value.str.inj equal)
      rw [strOf_points (CodePoints.valid_joinPairs content.valid)] at points
      exact (CodePoints.joinPairs_eq_self_iff content.points).mp points.symm
  | .bytes raw, _, _, read, _ => by cases read
  | .tuple items, 0, _, read, _ | .list items, 0, _, read, _ => by cases read
  | .tuple items, room + 1, _, read, equal => by
      obtain ⟨backs, each, result⟩ := bind_eq_ok.mp read
      obtain rfl := Except.ok.inj result
      exact equal.elim
  | .list items, room + 1, _, read, equal => by
      obtain ⟨backs, each, result⟩ := bind_eq_ok.mp read
      obtain rfl := Except.ok.inj result
      exact faithfulItems_of_equal float_repr items each equal
  | .dict items, 0, _, read, _ => by cases read
  | .dict items, room + 1, _, read, equal => by
      obtain ⟨members, each, result⟩ := bind_eq_ok.mp read
      obtain rfl := Except.ok.inj result
      obtain ⟨kept, pairs⟩ := equal
      rw [ofJsonMembers_eq_map, List.length_map] at kept
      exact faithfulPairs_of_aligned float_repr items (rereadPairs_names each)
        (aligned_of_equal each kept pairs)

theorem faithfulItems_of_equal (float_repr : ∀ x : Floating, float x.repr = x) :
    ∀ (items : List Value) {room : ℕ} {backs : List Json.Value},
      rereadItems limit room items = .ok backs →
        EqualItems worth (ofJsonItems float backs) items → FaithfulItems room items
  | [], _, _, _, _ => trivial
  | item :: items, room, _, read, equal => by
      obtain ⟨first, one, read⟩ := bind_eq_ok.mp read
      obtain ⟨later, others, result⟩ := bind_eq_ok.mp read
      obtain rfl := Except.ok.inj result
      exact ⟨faithful_of_equal float_repr item one equal.1,
        faithfulItems_of_equal float_repr items others equal.2⟩

theorem faithfulPairs_of_aligned (float_repr : ∀ x : Floating, float x.repr = x) :
    ∀ (items : List (Value × Value)) {room : ℕ} {members : List (Text × Json.Value)},
      List.Forall₂ (fun item member => ∃ name, keyText limit item.1 = .ok name
          ∧ member.1 = CodePoints.joinPairs name ∧ reread limit room item.2 = .ok member.2)
        items members →
      List.Forall₂ (fun item member => (∃ content : Str, item.1 = .str content
          ∧ CodePoints.Apart content.points) ∧ Equal worth (ofJson float member.2) item.2)
        items members → FaithfulPairs room items
  | [], _, _, _, _ => trivial
  | (key, value) :: items, room, _, .cons read reads, .cons equal equals => by
      obtain ⟨name, -, -, one⟩ := read
      exact ⟨equal.1, faithful_of_equal float_repr value one equal.2,
        faithfulPairs_of_aligned float_repr items reads equals⟩
end

/-- **What comes back of a value is equal to it exactly if the value is faithful.** -/
theorem reread_equal_iff (float_repr : ∀ x : Floating, float x.repr = x) {value : Value}
    {room : ℕ} (distinct : Distinct worth value) :
    (∃ back, reread limit room value = .ok back ∧ Equal worth (ofJson float back) value) ↔
      Faithful room value := by
  constructor
  · rintro ⟨back, read, equal⟩
    exact faithful_of_equal float_repr value read equal
  · intro faithful
    obtain ⟨back, read, same⟩ := reread_of_faithful float_repr value faithful distinct
    exact ⟨back, read, same ▸ equal_self _ (same ▸ faithful)⟩

end Kept

end Python
