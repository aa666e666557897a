import Mathlib.Data.List.Induction
import Mathlib.Data.List.Perm.Basic
import PyCommon.Lib.Dictionaries

/-!
# Readiness

The `/ready` endpoint of `build_health_router`. The checks run at the same time, and each writes
its error, or `None`, under its name as it ends; the endpoint then reads the dictionary back, once
for each check.

Checks of one name write to one entry, and the one that ends last is heard (`Last`). So the
endpoint answers by the checks that end last of their name (`ready_eq`). That is the answer it
should give exactly when every check passes or some check that fails is the last of its name
(`ready_right_iff`), whatever the order when some check fails together with all of its name
(`ready_right_every_order_iff`).
-/

set_option autoImplicit false

namespace PyCommon.Health

open Dictionaries (assign lookup_assign)

/-! ## Checks -/

/-- What the call of a check comes to: it returns, it runs out of time or raises a
`TimeoutError` of its own, or it raises another `Exception`, with its text and its type. -/
inductive Outcome where
  | returned
  | timedOut
  | raised (message typeName : String)
  deriving DecidableEq

structure HealthCheck where
  name : String
  check : Outcome
  deriving DecidableEq

/-- `_run_check`: an error message if the check failed. -/
def runCheck (hc : HealthCheck) : Option String :=
  match hc.check with
  | .returned => none
  | .timedOut => some "timeout"
  | .raised message typeName => some (if message = "" then typeName else message)

def HealthCheck.Passes (hc : HealthCheck) : Prop := hc.check = .returned

instance (hc : HealthCheck) : Decidable hc.Passes := inferInstanceAs (Decidable (_ = _))

theorem runCheck_eq_none_iff {hc : HealthCheck} : runCheck hc = none ↔ hc.Passes := by
  cases found : hc.check with
  | returned => simp [runCheck, HealthCheck.Passes, found]
  | timedOut => simp [runCheck, HealthCheck.Passes, found]
  | raised message typeName => simp [runCheck, HealthCheck.Passes, found]

/-! ## The endpoint -/

/-- `_run_checks`, when the checks end in that order. -/
def runChecks (order : List HealthCheck) : List (String × Option String) :=
  order.foldl (fun errors hc => assign hc.name (runCheck hc) errors) []

structure Response where
  statusCode : ℕ
  status : String
  checks : List (String × String)
  deriving DecidableEq

/-- The loop of `ready`, with `none` for the `KeyError` of a name without an entry. -/
def readBack (errors : List (String × Option String)) :
    List HealthCheck → List (String × String) → Bool → Option (List (String × String) × Bool)
  | [], results, failed => some (results, failed)
  | hc :: rest, results, failed =>
      match errors.lookup hc.name with
      | none => none
      | some none => readBack errors rest (assign hc.name "ok" results) failed
      | some (some error) =>
          readBack errors rest (assign hc.name ("failed: " ++ error) results) true

/-- `ready`, when the checks end in that order. -/
def ready (isDraining : Bool) (checks order : List HealthCheck) : Option Response :=
  if isDraining then some ⟨503, "draining", []⟩
  else
    (readBack (runChecks order) checks [] false).map fun read =>
      ⟨if read.2 then 503 else 200, if read.2 then "degraded" else "ok", read.1⟩

/-! ## The last of a name -/

/-- No check of its name ends after it. -/
def Last (order : List HealthCheck) (hc : HealthCheck) : Prop :=
  ∃ before after, order = before ++ hc :: after ∧ ∀ other ∈ after, other.name ≠ hc.name

theorem Last.mem {order : List HealthCheck} {hc : HealthCheck} (last : Last order hc) :
    hc ∈ order := by
  obtain ⟨before, after, rfl, _⟩ := last
  exact List.mem_append_right before List.mem_cons_self

theorem last_concat {order : List HealthCheck} {hc ending : HealthCheck} :
    Last (order ++ [ending]) hc ↔ hc = ending ∨ (Last order hc ∧ hc.name ≠ ending.name) := by
  constructor
  · rintro ⟨before, after, split, fresh⟩
    rcases List.eq_nil_or_concat after with rfl | ⟨earlier, final, rfl⟩
    · left
      exact (List.append_inj' split rfl).2 |> List.cons.inj |>.1.symm
    · right
      rw [List.concat_eq_append, ← List.cons_append, ← List.append_assoc] at split
      obtain ⟨rfl, same⟩ := List.append_inj' split rfl
      obtain rfl := (List.cons.inj same).1
      refine ⟨⟨before, earlier, rfl, fun other member => fresh other ?_⟩, fun clash => ?_⟩
      · rw [List.concat_eq_append]
        exact List.mem_append_left _ member
      · refine fresh ending ?_ clash.symm
        rw [List.concat_eq_append]
        exact List.mem_append_right _ List.mem_cons_self
  · rintro (rfl | ⟨⟨before, after, rfl, fresh⟩, distinct⟩)
    · exact ⟨order, [], rfl, nofun⟩
    · refine ⟨before, after ++ [ending], by simp, fun other member => ?_⟩
      rcases List.mem_append.mp member with earlier | final
      · exact fresh other earlier
      · obtain rfl := List.mem_singleton.mp final
        exact fun clash => distinct clash.symm

/-- What ends after all of the checks that a last one is among has other names. -/
theorem Last.name_ne_of_mem {first second : List HealthCheck} {hc other : HealthCheck}
    (last : Last (first ++ second) hc) (absent : hc ∉ second) (member : other ∈ second) :
    other.name ≠ hc.name := by
  obtain ⟨before, after, split, fresh⟩ := last
  rcases List.append_eq_append_iff.mp split with ⟨rest, _, same⟩ | ⟨rest, _, same⟩
  · exact absurd (same ▸ List.mem_append_right rest List.mem_cons_self) absent
  · cases rest with
    | nil => exact absurd (same ▸ List.mem_cons_self : hc ∈ [] ++ second) absent
    | cons head rest =>
        obtain ⟨_, rfl⟩ := List.cons.inj same
        exact fresh other (List.mem_append_right rest member)

/-- Each name has a check that ends last. -/
theorem exists_last {order : List HealthCheck} {hc : HealthCheck} (member : hc ∈ order) :
    ∃ final, Last order final ∧ final.name = hc.name := by
  induction order using List.reverseRecOn with
  | nil => cases member
  | append_singleton earlier ending ih =>
      by_cases same : hc.name = ending.name
      · exact ⟨ending, last_concat.mpr (.inl rfl), same.symm⟩
      · rcases List.mem_append.mp member with inside | final
        · obtain ⟨found, last, name⟩ := ih inside
          refine ⟨found, last_concat.mpr (.inr ⟨last, ?_⟩), name⟩
          rw [name]
          exact same
        · exact absurd (congrArg HealthCheck.name (List.mem_singleton.mp final)) same

/-- **What the dictionary holds** is the error of the check that ended last of its name. -/
theorem lookup_runChecks {order : List HealthCheck} {hc : HealthCheck} (last : Last order hc) :
    (runChecks order).lookup hc.name = some (runCheck hc) := by
  induction order using List.reverseRecOn with
  | nil => cases last.mem
  | append_singleton earlier ending ih =>
      have grown : runChecks (earlier ++ [ending]) =
          assign ending.name (runCheck ending) (runChecks earlier) := by
        rw [runChecks, List.foldl_append]
        rfl
      rw [grown, lookup_assign]
      rcases last_concat.mp last with rfl | ⟨inside, distinct⟩
      · exact if_pos rfl
      · rw [if_neg distinct]
        exact ih inside

/-! ## What the endpoint answers -/

/-- The loop fails as soon as one name has an error. -/
theorem readBack_of_lookup {errors : List (String × Option String)} {checks : List HealthCheck}
    (known : ∀ hc ∈ checks, ∃ error, errors.lookup hc.name = some error)
    (results : List (String × String)) (failed : Bool) :
    ∃ results' failed', readBack errors checks results failed = some (results', failed') ∧
      (failed' = true ↔
        failed = true ∨ ∃ hc ∈ checks, ∃ error, errors.lookup hc.name = some (some error)) := by
  induction checks generalizing results failed with
  | nil => exact ⟨results, failed, rfl, by simp⟩
  | cons hc rest ih =>
      obtain ⟨error, found⟩ := known hc List.mem_cons_self
      have others : ∀ other ∈ rest, ∃ error, errors.lookup other.name = some error :=
        fun other member => known other (List.mem_cons_of_mem hc member)
      cases error with
      | none =>
          obtain ⟨results', failed', read, iff⟩ :=
            ih others (assign hc.name "ok" results) failed
          refine ⟨results', failed', by rw [readBack, found]; exact read, iff.trans ?_⟩
          simp [found]
      | some error =>
          obtain ⟨results', failed', read, iff⟩ :=
            ih others (assign hc.name ("failed: " ++ error) results) true
          refine ⟨results', failed', by rw [readBack, found]; exact read, iff.trans ?_⟩
          simp [found]

/-- Some check that fails is the last of its name to end. -/
def FailureHeard (order : List HealthCheck) : Prop := ∃ hc, Last order hc ∧ ¬ hc.Passes

/-- **The answer of `/ready`** is 503 if a check that fails is the last of its name to end, and
200 if none is. -/
theorem ready_eq {checks order : List HealthCheck} (perm : order.Perm checks) :
    ∃ response, ready false checks order = some response ∧
      (FailureHeard order ∧ response.statusCode = 503 ∨
        ¬ FailureHeard order ∧ response.statusCode = 200) := by
  have read : ∀ hc ∈ checks, ∃ final, Last order final ∧
      (runChecks order).lookup hc.name = some (runCheck final) := by
    intro hc member
    obtain ⟨final, last, name⟩ := exists_last (perm.mem_iff.mpr member)
    exact ⟨final, last, name ▸ lookup_runChecks last⟩
  have known : ∀ hc ∈ checks, ∃ error, (runChecks order).lookup hc.name = some error := by
    intro hc member
    obtain ⟨final, _, found⟩ := read hc member
    exact ⟨_, found⟩
  obtain ⟨results, failed, loop, iff⟩ := readBack_of_lookup known [] false
  have heard : failed = true ↔ FailureHeard order := by
    rw [iff]
    constructor
    · rintro (never | ⟨hc, member, error, found⟩)
      · cases never
      · obtain ⟨final, last, also⟩ := read hc member
        refine ⟨final, last, fun passes => ?_⟩
        rw [found, runCheck_eq_none_iff.mpr passes] at also
        cases Option.some.inj also
    · rintro ⟨hc, last, fails⟩
      refine .inr ⟨hc, perm.mem_iff.mp last.mem, ?_⟩
      cases error : runCheck hc with
      | none => exact absurd (runCheck_eq_none_iff.mp error) fails
      | some error_ =>
          refine ⟨error_, ?_⟩
          rw [lookup_runChecks last, error]
  refine ⟨⟨if failed then 503 else 200, if failed then "degraded" else "ok", results⟩, ?_, ?_⟩
  · simp only [ready, Bool.false_eq_true, if_false, loop, Option.map_some]
  · cases failed with
    | true => exact .inl ⟨heard.mp rfl, rfl⟩
    | false => exact .inr ⟨fun some_ => Bool.false_ne_true (heard.mpr some_), rfl⟩

/-- The endpoint answers 200 if every check passed and 503 if one did not. -/
def AnswersRight (checks order : List HealthCheck) : Prop :=
  ∃ response, ready false checks order = some response ∧
    (response.statusCode = 200 ↔ ∀ hc ∈ checks, hc.Passes) ∧
    (response.statusCode = 503 ↔ ¬ ∀ hc ∈ checks, hc.Passes)

theorem FailureHeard.not_all {checks order : List HealthCheck} (perm : order.Perm checks)
    (heard : FailureHeard order) : ¬ ∀ hc ∈ checks, hc.Passes := by
  obtain ⟨hc, last, fails⟩ := heard
  exact fun all => fails (all hc (perm.mem_iff.mp last.mem))

/-- **When readiness is right.** For every list of checks, every outcome of each and every order
in which they end, the endpoint answers 200 exactly if every check passed and 503 otherwise,
precisely when every check passes or some check that fails is the last of its name to end. -/
theorem ready_right_iff {checks order : List HealthCheck} (perm : order.Perm checks) :
    AnswersRight checks order ↔
      (∀ hc ∈ checks, hc.Passes) ∨ ∃ hc, Last order hc ∧ ¬ hc.Passes := by
  obtain ⟨response, answer, status⟩ := ready_eq perm
  constructor
  · rintro ⟨response', answer', ok, _⟩
    obtain rfl := Option.some.inj (answer.symm.trans answer')
    rcases status with ⟨heard, _⟩ | ⟨_, code⟩
    · exact .inr heard
    · exact .inl (ok.mp code)
  · intro condition
    refine ⟨response, answer, ?_⟩
    rcases status with ⟨heard, code⟩ | ⟨unheard, code⟩
    · have failing := heard.not_all perm
      rw [code]
      exact ⟨⟨nofun, fun all => absurd all failing⟩, ⟨fun _ => failing, fun _ => rfl⟩⟩
    · have all := condition.resolve_right unheard
      rw [code]
      exact ⟨⟨fun _ => all, fun _ => rfl⟩, ⟨nofun, fun failing => absurd all failing⟩⟩

/-- Two databases under one name, of which the one that fails ends last. -/
theorem ready_right_of_late_failure :
    AnswersRight [⟨"db", .raised "unreachable" "ConnectionError"⟩, ⟨"db", .returned⟩]
      [⟨"db", .returned⟩, ⟨"db", .raised "unreachable" "ConnectionError"⟩] :=
  (ready_right_iff (List.Perm.swap _ _ _)).mpr
    (.inr ⟨⟨"db", .raised "unreachable" "ConnectionError"⟩, ⟨[⟨"db", .returned⟩], [], rfl, nofun⟩,
      by decide⟩)

/-- **A failing dependency is masked.** A check that passes ends after one of its name that
failed, and the pod is ready. -/
theorem failure_masked :
    ready false [⟨"db", .raised "unreachable" "ConnectionError"⟩, ⟨"db", .returned⟩]
      [⟨"db", .raised "unreachable" "ConnectionError"⟩, ⟨"db", .returned⟩] =
        some ⟨200, "ok", [("db", "ok")]⟩ ∧
    ¬ AnswersRight [⟨"db", .raised "unreachable" "ConnectionError"⟩, ⟨"db", .returned⟩]
      [⟨"db", .raised "unreachable" "ConnectionError"⟩, ⟨"db", .returned⟩] := by
  have answer : ready false [⟨"db", .raised "unreachable" "ConnectionError"⟩, ⟨"db", .returned⟩]
      [⟨"db", .raised "unreachable" "ConnectionError"⟩, ⟨"db", .returned⟩] =
        some ⟨200, "ok", [("db", "ok")]⟩ := by decide
  refine ⟨answer, ?_⟩
  rintro ⟨response, also, ok, _⟩
  obtain rfl := Option.some.inj (answer.symm.trans also)
  have passes := ok.mp rfl ⟨"db", .raised "unreachable" "ConnectionError"⟩ List.mem_cons_self
  cases passes

/-- **When readiness is right in every order.** Every check passes, or some check fails together
with every other of its name. -/
theorem ready_right_every_order_iff {checks : List HealthCheck} :
    (∀ order : List HealthCheck, order.Perm checks → AnswersRight checks order) ↔
      (∀ hc ∈ checks, hc.Passes) ∨
        ∃ hc ∈ checks, ∀ other ∈ checks, other.name = hc.name → ¬ other.Passes := by
  constructor
  · intro always
    -- The order in which every check that fails ends before any that passes.
    have perm : ((checks.filter fun hc => ¬ hc.Passes) ++ checks.filter fun hc => hc.Passes).Perm
        checks := by
      refine List.perm_append_comm.trans ?_
      simpa using List.filter_append_perm (fun hc : HealthCheck => decide hc.Passes) checks
    rcases (ready_right_iff perm).mp (always _ perm) with all | ⟨hc, last, fails⟩
    · exact .inl all
    · refine .inr ⟨hc, perm.mem_iff.mp last.mem, fun other member name passes => ?_⟩
      have absent : hc ∉ checks.filter fun hc => hc.Passes := fun inside =>
        fails (of_decide_eq_true (List.mem_filter.mp inside).2)
      have later : other ∈ checks.filter fun hc => hc.Passes :=
        List.mem_filter.mpr ⟨member, decide_eq_true passes⟩
      exact last.name_ne_of_mem absent later name
  · intro condition order perm
    refine (ready_right_iff perm).mpr (condition.imp_right ?_)
    rintro ⟨hc, member, together⟩
    obtain ⟨final, last, name⟩ := exists_last (perm.mem_iff.mpr member)
    exact ⟨final, last, together final (perm.mem_iff.mp last.mem) name⟩

end PyCommon.Health
