import Mathlib.Algebra.Group.Nat.Defs
import Mathlib.Data.List.Basic

/-!
# Interpolated options

The values of Python's `configparser.BasicInterpolation`. Where a value is set, its percent signs
have to come in pairs or to begin a reference `%(name)s`. Where it is read, a pair is one percent
sign, and a reference is replaced by the value it names, in which references are replaced in turn.

A text whose percent signs are doubled can be set, and is read back as it was
(`beforeSet_double`, `beforeGet_double`).
-/

set_option autoImplicit false

namespace Interpolation

inductive InterpolationError where
  | invalid
  | missing (name : List Char)
  | tooDeep
  deriving DecidableEq

/-- `content.replace("%", "%%")`. -/
def double : List Char → List Char
  | [] => []
  | c :: rest => if c = '%' then '%' :: '%' :: double rest else c :: double rest

/-- The name in what follows a `%(`, and what comes after the reference. -/
def reference (content : List Char) : Option (List Char × List Char) :=
  match content.dropWhile (· ≠ ')') with
  | ')' :: 's' :: rest =>
      if content.takeWhile (· ≠ ')') = [] then none
      else some (content.takeWhile (· ≠ ')'), rest)
  | _ => none

theorem length_of_reference {content name rest : List Char}
    (found : reference content = some (name, rest)) : rest.length < content.length := by
  unfold reference at found
  split at found
  · rename_i later dropped
    split at found
    · cases found
    · obtain ⟨_, rfl⟩ := Prod.mk.inj (Option.some.inj found)
      have suffix_ : (content.dropWhile (· ≠ ')')).length ≤ content.length :=
        (List.dropWhile_suffix _).length_le
      rw [dropped] at suffix_
      simp only [List.length_cons] at suffix_
      omega
  · cases found

/-! ## Setting a value -/

/-- `content.replace("%%", "")`. -/
def dropPairs : List Char → List Char
  | '%' :: '%' :: rest => dropPairs rest
  | c :: rest => c :: dropPairs rest
  | [] => []

/-- The text without its references. -/
def dropReferences (content : List Char) : List Char :=
  match content with
  | '%' :: '(' :: rest =>
      match _found : reference rest with
      | some (_, later) => dropReferences later
      | none => '%' :: dropReferences ('(' :: rest)
  | c :: rest => c :: dropReferences rest
  | [] => []
termination_by content.length
decreasing_by
  all_goals simp only [List.length_cons]
  · have shorter := length_of_reference _found
    omega
  · omega
  · omega

/-- `before_set`: the value, unless a percent sign is left over. -/
def beforeSet (value : List Char) : Except InterpolationError (List Char) :=
  if '%' ∈ dropReferences (dropPairs value) then .error .invalid else .ok value

/-! ## Reading a value -/

/-- `_interpolate_some`, with the number of levels that are left, for options of these values. -/
def interpolateSome (option : List Char → Option (List Char)) (levels : ℕ) (content : List Char) :
    Except InterpolationError (List Char) :=
  match levels, content with
  | 0, _ => .error .tooDeep
  | _ + 1, [] => .ok []
  | levels + 1, '%' :: '%' :: rest =>
      (interpolateSome option (levels + 1) rest).map ('%' :: ·)
  | levels + 1, '%' :: '(' :: rest =>
      match _found : reference rest with
      | none => .error .invalid
      | some (name, later) =>
          match option name with
          | none => .error (.missing name)
          | some value => do
              let inner ← if '%' ∈ value then interpolateSome option levels value else .ok value
              let after ← interpolateSome option (levels + 1) later
              return inner ++ after
  | _ + 1, '%' :: _ => .error .invalid
  | levels + 1, c :: rest => (interpolateSome option (levels + 1) rest).map (c :: ·)
termination_by (levels, content.length)
decreasing_by
  · exact .right _ (by simp only [List.length_cons]; omega)
  · have shorter := length_of_reference _found
    exact .right _ (by simp only [List.length_cons]; omega)
  · exact .left _ _ (Nat.lt_succ_self _)
  · exact .right _ (by simp only [List.length_cons]; omega)

/-- `before_get`, which goes down ten levels. -/
def beforeGet (option : List Char → Option (List Char)) (value : List Char) :
    Except InterpolationError (List Char) :=
  interpolateSome option 10 value

/-! ## What is doubled is read back -/

/-- Nothing is left of the percent signs of a doubled text. -/
theorem dropPairs_double (content : List Char) :
    dropPairs (double content) = content.filter (· ≠ '%') := by
  induction content with
  | nil => rfl
  | cons c rest ih =>
      by_cases percent : c = '%'
      · subst percent
        rw [double, if_pos rfl, dropPairs, ih, List.filter_cons_of_neg (by decide)]
      · rw [double, if_neg percent, dropPairs, ih,
          List.filter_cons_of_pos (by simpa using percent)]
        rintro later rfl
        exact absurd rfl percent

theorem dropReferences_of_notMem {content : List Char} (plain : '%' ∉ content) :
    dropReferences content = content := by
  induction content with
  | nil => rw [dropReferences]
  | cons c rest ih =>
      rw [List.mem_cons, not_or] at plain
      rw [dropReferences, ih plain.2]
      rintro later rfl
      exact absurd rfl plain.1

theorem dropPairs_of_notMem {content : List Char} (plain : '%' ∉ content) :
    dropPairs content = content := by
  induction content with
  | nil => rfl
  | cons c rest ih =>
      rw [List.mem_cons, not_or] at plain
      rw [dropPairs, ih plain.2]
      rintro later rfl
      exact absurd rfl plain.1

/-- A text without percent signs can be set. -/
theorem beforeSet_of_notMem {value : List Char} (plain : '%' ∉ value) :
    beforeSet value = .ok value := by
  rw [beforeSet, dropPairs_of_notMem plain, dropReferences_of_notMem plain, if_neg plain]

/-- **A doubled text can be set.** -/
theorem beforeSet_double (content : List Char) :
    beforeSet (double content) = .ok (double content) := by
  have none_left : '%' ∉ content.filter (· ≠ '%') := by
    intro member
    exact absurd (List.mem_filter.mp member).2 (by decide)
  rw [beforeSet, dropPairs_double, dropReferences_of_notMem none_left, if_neg none_left]

/-- **A doubled text is read back**, whatever the options are. -/
theorem beforeGet_double (option : List Char → Option (List Char)) (content : List Char) :
    beforeGet option (double content) = .ok content := by
  rw [beforeGet]
  induction content with
  | nil => rw [double, interpolateSome]
  | cons c rest ih =>
      by_cases percent : c = '%'
      · subst percent
        rw [double, if_pos rfl, interpolateSome, ih]
        rfl
      · rw [double, if_neg percent, interpolateSome, ih]
        · rfl
        · rintro later rfl
          exact absurd rfl percent
        · rintro later rfl
          exact absurd rfl percent
        · rintro rfl
          exact absurd rfl percent

end Interpolation
