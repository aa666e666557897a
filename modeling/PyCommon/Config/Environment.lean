import PyCommon.Security.Keycloak

/-!
# One environment

The environment a service runs in is found twice. `resolve_environment` reads `ENVIRONMENT` from
the process, unless it is empty, and then from the base `.env` file, unless it is empty there, and
takes it without blanks and in lower case. `BaseAppSettings` picks its env files by that, and then
lets pydantic-settings read the same variable: from the process if it is set at all, then from the
env files, and exactly as it is.

Whatever the sources are, if the first returns an environment, the second has that environment too
exactly when the value that pydantic-settings reads is the value of an environment, or there is
none (`settings_agree_iff`).
-/

set_option autoImplicit false

namespace PyCommon.Config

open CodePoints

inductive Environment where
  | dev
  | staging
  | production
  deriving DecidableEq

def Environment.value : Environment → Text
  | .dev => text "dev"
  | .staging => text "staging"
  | .production => text "production"

/-- The members in the order of the class. -/
def Environment.members : List Environment := [.dev, .staging, .production]

/-- `Environment(raw)`, unless that raises. -/
def Environment.ofValue (raw : Text) : Option Environment :=
  Environment.members.find? fun e => e.value = raw

/-- What goes wrong: `_coerce` names the value and where it is from, pydantic refuses a value, and
`BaseAppSettings` finds another environment than the one that it has picked its files for. -/
inductive EnvironmentError where
  | invalid (raw : Text) (source : String)
  | validation (raw : Text)
  | mismatch (resolved loaded : Environment)
  deriving DecidableEq

/-- The value of `ENVIRONMENT` in the process, and the env files, each of which may be there and
may set it. -/
structure Sources where
  process : Option Text
  base : Option (Option Text)
  specific : Environment → Option (Option Text) := fun _ => none

/-- `str.strip()`. -/
def strip (content : Text) : Text :=
  ((content.dropWhile Keycloak.isSpace).reverse.dropWhile Keycloak.isSpace).reverse

/-- A value that is there and not empty. -/
def truthy (value : Option Text) : Option Text := value.filter fun raw => raw ≠ []

section Resolution

-- `str.lower`.
variable (lower : Text → Text)

/-- `_coerce`. -/
def coerce (raw : Text) (source : String) : Except EnvironmentError Environment :=
  match Environment.ofValue (lower (strip raw)) with
  | some e => .ok e
  | none => .error (.invalid raw source)

/-- `resolve_environment`. -/
def resolveEnvironment (environment : Option Text) (sources : Sources) :
    Except EnvironmentError Environment :=
  match environment with
  | some raw => coerce lower raw "argument"
  | none =>
      match truthy sources.process with
      | some raw => coerce lower raw "ENVIRONMENT environment variable"
      | none =>
          match truthy sources.base.join with
          | some raw => coerce lower raw ".env"
          | none => .ok .dev

/-- `get_environment`, in a process in which the sources stay as they are. -/
def getEnvironment (sources : Sources) : Except EnvironmentError Environment :=
  resolveEnvironment lower none sources

/-- `resolve_env_files`: the files that are there, the later ones with the higher priority. -/
def resolveEnvFiles (environment : Option Text) (sources : Sources) :
    Except EnvironmentError (List (Option Text)) :=
  (resolveEnvironment lower environment sources).map fun env =>
    [sources.base, sources.specific env].filterMap id

/-- The field `environment` for the value pydantic-settings has read, if any. -/
def validated : Option Text → Except EnvironmentError Environment
  | none => .ok .dev
  | some raw =>
      match Environment.ofValue raw with
      | some e => .ok e
      | none => .error (.validation raw)

/-- pydantic-settings reads the process first and then the files, of which the last wins. -/
def loadEnvironment (process : Option Text) (files : List (Option Text)) :
    Except EnvironmentError Environment :=
  validated (process.or (files.filterMap id).getLast?)

/-- `BaseAppSettings()`, by its field `environment`. -/
def baseAppSettings (sources : Sources) : Except EnvironmentError Environment := do
  let resolved ← resolveEnvironment lower none sources
  let files ← resolveEnvFiles lower (some resolved.value) sources
  let environment ← loadEnvironment sources.process files
  if environment = resolved then .ok environment else .error (.mismatch resolved environment)

/-! ## When the two agree -/

theorem ofValue_value (e : Environment) : Environment.ofValue e.value = some e := by
  cases e <;> decide

theorem eq_value_of_ofValue {raw : Text} {e : Environment}
    (found : Environment.ofValue raw = some e) : raw = e.value := by
  rw [Environment.ofValue] at found
  have same := List.find?_some found
  exact (of_decide_eq_true same).symm

theorem strip_value (e : Environment) : strip e.value = e.value := by
  cases e <;> decide

variable {lower}

/-- The value of an environment is taken for that environment. -/
theorem coerce_value (lowers : ∀ e : Environment, lower e.value = e.value) (e : Environment)
    (source : String) : coerce lower e.value source = .ok e := by
  rw [coerce, strip_value, lowers, ofValue_value]

theorem truthy_value (e : Environment) : truthy (some e.value) = some e.value := by
  cases e <;> decide

/-- The value that counts for pydantic-settings, if it is that of an environment, is resolved to
that one. -/
theorem resolveEnvironment_of_value (lowers : ∀ e : Environment, lower e.value = e.value)
    {sources : Sources} {e : Environment}
    (counts : sources.process.or sources.base.join = some e.value) :
    resolveEnvironment lower none sources = .ok e := by
  unfold resolveEnvironment
  cases process : sources.process with
  | some raw =>
      rw [process, Option.some_or, Option.some.injEq] at counts
      simp only [counts, truthy_value, coerce_value lowers]
  | none =>
      rw [process, Option.none_or] at counts
      have absent : truthy none = none := rfl
      simp only [absent, counts, truthy_value, coerce_value lowers]

/-- **What `BaseAppSettings` loads**, when no environment-specific file sets `ENVIRONMENT`. -/
theorem baseAppSettings_eq (lowers : ∀ e : Environment, lower e.value = e.value)
    {sources : Sources} {e : Environment} (specific : ∀ e, (sources.specific e).join = none)
    (resolved : resolveEnvironment lower none sources = .ok e) :
    baseAppSettings lower sources =
      (validated (sources.process.or sources.base.join)).bind fun loaded =>
        if loaded = e then .ok loaded else .error (.mismatch e loaded) := by
  have files : resolveEnvFiles lower (some e.value) sources =
      .ok ([sources.base, sources.specific e].filterMap id) := by
    rw [resolveEnvFiles, resolveEnvironment, coerce_value lowers]
    rfl
  have set : (([sources.base, sources.specific e].filterMap id).filterMap id).getLast? =
      sources.base.join := by
    have unset := specific e
    rcases sources.base with _ | _ | base
    all_goals
      rcases there : sources.specific e with _ | _ | value
      · rfl
      · rfl
      · rw [there] at unset
        cases unset
  rw [baseAppSettings, resolved]
  simp only [bind, Except.bind, files, loadEnvironment, set]

/-- **When there is one environment.** Whenever `resolve_environment` returns an environment,
`BaseAppSettings` constructs and has that environment, exactly if `ENVIRONMENT` is set nowhere, or
the value that counts, of the process if it is set and of the `.env` file otherwise, is the value
of an environment. -/
theorem settings_agree_iff (lowers : ∀ e : Environment, lower e.value = e.value)
    {sources : Sources} {e : Environment} (specific : ∀ e, (sources.specific e).join = none)
    (resolved : getEnvironment lower sources = .ok e) :
    baseAppSettings lower sources = .ok e ↔
      ∀ raw, sources.process.or sources.base.join = some raw →
        ∃ named : Environment, raw = named.value := by
  rw [baseAppSettings_eq lowers specific resolved]
  cases counts : sources.process.or sources.base.join with
  | none =>
      have unset := Option.or_eq_none_iff.mp counts
      have same : getEnvironment lower sources = .ok .dev := by
        simp only [getEnvironment, resolveEnvironment, unset.1, unset.2]
        rfl
      obtain rfl := Except.ok.inj (resolved.symm.trans same)
      refine ⟨?_, fun _ => rfl⟩
      intro _ raw set
      cases set
  | some raw =>
      cases found : Environment.ofValue raw with
      | none =>
          rw [validated, found]
          constructor
          · intro loads
            cases loads
          · intro named
            obtain ⟨e', rfl⟩ := named raw rfl
            cases found.symm.trans (ofValue_value e')
      | some loaded =>
          obtain rfl := eq_value_of_ofValue found
          have same := resolveEnvironment_of_value lowers counts
          obtain rfl := Except.ok.inj (resolved.symm.trans same)
          rw [validated, found]
          constructor
          · rintro - raw rfl_
            exact ⟨e, (Option.some.inj rfl_).symm⟩
          · intro _
            exact if_pos rfl

end Resolution

/-! ## Instances -/

/-- The process says staging, and the `.env` file something else. -/
theorem settings_agree_staging :
    baseAppSettings asciiLower ⟨some (text "staging"), some (some (text " PROD ")), fun _ => none⟩ =
      .ok .staging :=
  (settings_agree_iff (fun e => by cases e <;> decide) (fun _ => rfl) (by decide)).mpr
    fun _ counts => ⟨.staging, (Option.some.inj counts).symm⟩

/-- **The two can disagree.** With `ENVIRONMENT=PRODUCTION` in the process, one resolves to
production, and the other does not construct. -/
theorem settings_disagree :
    getEnvironment asciiLower ⟨some (text "PRODUCTION"), none, fun _ => none⟩ = .ok .production ∧
    baseAppSettings asciiLower ⟨some (text "PRODUCTION"), none, fun _ => none⟩ =
      .error (.validation (text "PRODUCTION")) :=
  ⟨by decide, by decide⟩

end PyCommon.Config
