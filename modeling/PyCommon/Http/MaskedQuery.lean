import Mathlib.Data.List.Forall2
import PyCommon.Asgi
import PyCommon.Lib.QueryStrings

/-!
# Masked query parameters

`RequestContextMiddleware` writes the query of a request to its access log, with the values of
some parameters masked. The query is parsed, every value whose key in lower case is in the mask
set is replaced, and the pairs are written again.

The members of the mask set are compared as they were given. So two queries that differ only in
values that should be masked are logged alike, and every other pair can be read back, exactly when
the mask set holds the lower-case spelling of each of its members (`leaksNothing_iff`).
-/

set_option autoImplicit false

namespace PyCommon.MaskedQuery

open QueryStrings

/-- A Python `str` without lone surrogates. -/
abbrev Text := List Char

/-- `DEFAULT_MASK_QUERY_PARAMS`. -/
def defaultMaskQueryParams : List Text :=
  ["token", "access_token", "refresh_token", "password", "secret", "api_key", "apikey",
    "authorization"].map String.toList

/-- The mask set of `__init__`, by its members. -/
def maskParamsOf : Option (List Text) → List Text
  | some (param :: params) => param :: params
  | _ => defaultMaskQueryParams

section Masking

-- `str.lower`, of which only is relied on that it is idempotent.
variable (lower : Text → Text)

/-- `(k, "***" if k.lower() in mask_params else v)`. -/
def mask (maskParams : List Text) (pair : Text × Text) : Text × Text :=
  (pair.1, if lower pair.1 ∈ maskParams then "***".toList else pair.2)

/-- `_mask_query`, for the bytes of a scope. -/
def maskQuery (rawQuery : Bytes) (maskParams : List Text) : Except PyExc (Option Text) :=
  if rawQuery = [] then .ok none
  else
    match decode rawQuery with
    | .error e => .error e
    | .ok query =>
        if query = "" then .ok none
        else .ok (some (urlencode ((parseQsl query.toList).map (mask lower maskParams))))

/-- What the middleware logs of the query, with `none` for nothing. -/
def loggedQuery (maskQueryParams : Option (List Text)) (queryString : Bytes) :
    Except PyExc (Option Text) :=
  maskQuery lower queryString (maskParamsOf maskQueryParams)

/-- The text that is logged of a query in UTF-8, the empty one where nothing is logged. -/
def loggedText (maskParams : List Text) (query : String) : Except PyExc Text :=
  (loggedQuery lower (some maskParams) (encode query)).map (·.getD [])

/-! ## What masking promises -/

/-- A key is a member of the mask set, but for its letter case. -/
def Secret (maskParams : List Text) (key : Text) : Prop :=
  ∃ param ∈ maskParams, lower key = lower param

/-- The same keys in the same order, and other values only for keys that are secret. -/
def DifferInSecrets (maskParams : List Text) : List (Text × Text) → List (Text × Text) → Prop :=
  List.Forall₂ fun pair other =>
    pair.1 = other.1 ∧ (pair.2 ≠ other.2 → Secret lower maskParams pair.1)

/-- The same keys in the same order, and the same values for keys that are not secret. -/
def ReadsBack (maskParams : List Text) : List (Text × Text) → List (Text × Text) → Prop :=
  List.Forall₂ fun pair read =>
    read.1 = pair.1 ∧ (¬ Secret lower maskParams pair.1 → read.2 = pair.2)

/-- What a mask set owes: the logged query says nothing of the values that are secret, and
everything else. -/
structure LeaksNothing (maskParams : List Text) : Prop where
  same : ∀ query query' : String,
    DifferInSecrets lower maskParams (parseQsl query.toList) (parseQsl query'.toList) →
    loggedText lower maskParams query = loggedText lower maskParams query'
  others : ∀ (query : String) (logged : Text), loggedText lower maskParams query = .ok logged →
    ReadsBack lower maskParams (parseQsl query.toList) (parseQsl logged)

variable {lower} {maskParams : List Text}

/-- **What is logged.** Nothing for the empty query, and the masked pairs for any other. -/
theorem loggedQuery_eq (nonempty : maskParams ≠ []) (query : String) :
    loggedQuery lower (some maskParams) (encode query) =
      if query = "" then .ok none
      else .ok (some (urlencode ((parseQsl query.toList).map (mask lower maskParams)))) := by
  have given : maskParamsOf (some maskParams) = maskParams := by
    cases maskParams with
    | nil => exact absurd rfl nonempty
    | cons param params => rfl
  have empty : encode "" = [] := rfl
  rw [loggedQuery, given, maskQuery, decode_encode]
  by_cases blank : query = ""
  · rw [if_pos blank, blank, empty, if_pos rfl]
  · have bytes : encode query ≠ [] := fun same => blank (encode_injective (same.trans empty.symm))
    rw [if_neg bytes, if_neg blank]
    simp only [if_neg blank]

/-- The pairs of every query are logged with the values masked. -/
theorem loggedText_eq (nonempty : maskParams ≠ []) (query : String) :
    loggedText lower maskParams query =
      .ok (urlencode ((parseQsl query.toList).map (mask lower maskParams))) := by
  rw [loggedText, loggedQuery_eq nonempty]
  by_cases blank : query = ""
  · rw [if_pos blank, blank]
    rfl
  · rw [if_neg blank]
    rfl

/-- Pairs that differ in secrets are masked alike, if the mask set holds the lower-case spelling
of its members. -/
theorem DifferInSecrets.map_mask (closed : ∀ param ∈ maskParams, lower param ∈ maskParams)
    {pairs others : List (Text × Text)} (differ : DifferInSecrets lower maskParams pairs others) :
    pairs.map (mask lower maskParams) = others.map (mask lower maskParams) := by
  induction differ with
  | nil => rfl
  | cons here _ ih =>
      rename_i pair other rest rest' later
      have alike : mask lower maskParams pair = mask lower maskParams other := by
        obtain ⟨key, secret⟩ := here
        rw [mask, mask, ← key]
        by_cases masked : lower pair.1 ∈ maskParams
        · rw [if_pos masked, if_pos masked]
        · have value : pair.2 = other.2 := by
            by_contra distinct
            obtain ⟨param, member, same⟩ := secret distinct
            exact masked (same ▸ closed param member)
          rw [if_neg masked, if_neg masked, value]
      rw [List.map_cons, List.map_cons, alike, ih]

/-- Only the values of secret keys are masked. -/
theorem readsBack_map_mask (idempotent : ∀ key, lower (lower key) = lower key)
    (pairs : List (Text × Text)) :
    ReadsBack lower maskParams pairs (pairs.map (mask lower maskParams)) := by
  induction pairs with
  | nil => exact List.Forall₂.nil
  | cons pair rest ih =>
      refine List.Forall₂.cons ⟨rfl, fun plain => ?_⟩ ih
      have unmasked : lower pair.1 ∉ maskParams := fun member =>
        plain ⟨lower pair.1, member, (idempotent pair.1).symm⟩
      exact if_neg unmasked

/-- **When masking leaks nothing.** For every mask set, any two queries that differ only at keys
equal to a member but for letter case are logged alike and every other pair is read back from the
log, exactly when the lower-case spelling of each member is a member. -/
theorem leaksNothing_iff (nonempty : maskParams ≠ [])
    (idempotent : ∀ key, lower (lower key) = lower key) :
    LeaksNothing lower maskParams ↔ ∀ param ∈ maskParams, lower param ∈ maskParams := by
  constructor
  · intro leaks param member
    by_contra absent
    -- Two queries with that key alone, whose values are logged.
    have shown : ∀ value : Char,
        loggedText lower maskParams (String.ofList (urlencode [(param, [value])])) =
          .ok (urlencode [(param, [value])]) := by
      intro value
      rw [loggedText_eq nonempty, String.toList_ofList, parseQsl_urlencode, List.map_singleton,
        mask, if_neg absent]
    have differ : DifferInSecrets lower maskParams [(param, ['a'])] [(param, ['b'])] :=
      List.Forall₂.cons ⟨rfl, fun _ => ⟨param, member, rfl⟩⟩ List.Forall₂.nil
    have same := leaks.same (String.ofList (urlencode [(param, ['a'])]))
      (String.ofList (urlencode [(param, ['b'])]))
      (by simpa only [String.toList_ofList, parseQsl_urlencode] using differ)
    rw [shown, shown] at same
    have pairs := urlencode_injective (Except.ok.inj same)
    simp at pairs
  · intro closed
    refine ⟨fun query query' differ => ?_, fun query logged logs => ?_⟩
    · rw [loggedText_eq nonempty, loggedText_eq nonempty, differ.map_mask closed]
    · rw [loggedText_eq nonempty] at logs
      obtain rfl := Except.ok.inj logs
      rw [parseQsl_urlencode]
      exact readsBack_map_mask idempotent _

end Masking

/-! ## Instances -/

/-- The mask set that is used if none is given. On ASCII `str.lower` is `Char.toLower`. -/
theorem leaksNothing_default : LeaksNothing (List.map Char.toLower) defaultMaskQueryParams := by
  refine (leaksNothing_iff (by decide) fun key => ?_).mpr (by decide)
  rw [List.map_map]
  exact List.map_congr_left fun c _ => toLower_toLower c

/-- **A secret is logged.** A member with a capital letter masks nothing. -/
theorem capital_leaks :
    loggedQuery (List.map Char.toLower) (some ["Token".toList]) (encode "Token=a") =
      .ok (some "Token=a".toList) ∧
    ¬ LeaksNothing (List.map Char.toLower) ["Token".toList] := by
  have shown : ∀ query ∈ ["Token=a", "Token=b"],
      loggedQuery (List.map Char.toLower) (some ["Token".toList]) (encode query) =
        .ok (some query.toList) := by
    intro query member
    rw [loggedQuery_eq (by decide)]
    revert query
    decide
  refine ⟨shown _ List.mem_cons_self, fun leaks => ?_⟩
  have differ : DifferInSecrets (List.map Char.toLower) ["Token".toList] (parseQsl "Token=a".toList)
      (parseQsl "Token=b".toList) :=
    List.Forall₂.cons ⟨by decide, fun _ => ⟨"Token".toList, by decide, by decide⟩⟩
      List.Forall₂.nil
  have same := leaks.same "Token=a" "Token=b" differ
  rw [loggedText, loggedText, shown _ (by decide), shown _ (by decide)] at same
  exact absurd (Except.ok.inj same) (by decide)

end PyCommon.MaskedQuery
