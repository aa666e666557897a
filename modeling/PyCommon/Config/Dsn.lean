import PyCommon.Lib.Interpolation
import PyCommon.Lib.Outcomes
import PyCommon.Lib.PercentEncoding
import PyCommon.Lib.Separated

/-!
# The credentials in a DSN

`DatabaseSettings` writes user and password into the userinfo of a URL, each percent-encoded, and
`build_alembic_config` puts that URL, with its percent signs doubled, into a `ConfigParser`.

No delimiter of a URL is left in what is percent-encoded, so a parser finds the userinfo and the
colon in it where they were put, and reads the credentials back from the asynchronous DSN, from
the synchronous one, and from what comes out of the `ConfigParser` (`credentials_survive`).
-/

set_option autoImplicit false

namespace PyCommon.Dsn

open PercentEncoding Separated Interpolation

/-- A Python `str` without lone surrogates. -/
abbrev Text := List Char

/-! ## Writing -/

/-- `DatabaseSettings`, by the fields that make up a DSN or the configuration of Alembic. -/
structure DatabaseSettings where
  host : Text := "localhost".toList
  port : ℤ := 5432
  user : Text := "postgres".toList
  password : Text := "postgres".toList
  db : Text := "app".toList
  migrationsScriptLocation : Text := "alembic".toList
  deriving DecidableEq

/-- `auth` of `_dsn`. -/
def DatabaseSettings.auth (settings : DatabaseSettings) : Text :=
  quote [] settings.user ++ ':' :: quote [] settings.password

/-- `_dsn`. -/
def DatabaseSettings.dsn (settings : DatabaseSettings) (driver : Text) : Text :=
  "postgresql+".toList ++ driver ++ "://".toList ++ settings.auth ++
    '@' :: (settings.host ++ ':' :: Numerals.print settings.port ++ '/' :: settings.db)

def DatabaseSettings.asyncDsn (settings : DatabaseSettings) : Text :=
  settings.dsn "asyncpg".toList

def DatabaseSettings.syncDsn (settings : DatabaseSettings) : Text :=
  settings.dsn "psycopg".toList

/-! ## Alembic's configuration -/

/-- The section of the `ConfigParser` that options are set in, the last one first, the values it
has for every section, and the name of the section Alembic is told to read. -/
structure AlembicConfig where
  options : List (Text × Text) := []
  defaults : List (Text × Text)
  configIniSection : Text := "alembic".toList
  deriving DecidableEq

/-- `optionxform`: names in lower case, on ASCII. -/
def optionxform (name : Text) : Text := name.map Char.toLower

/-- `set_main_option`. -/
def AlembicConfig.setMainOption (config : AlembicConfig) (name value : Text) :
    Except InterpolationError AlembicConfig :=
  (beforeSet value).map fun value =>
    { config with options := (optionxform name, value) :: config.options }

/-- The value of an option as it is stored. -/
def AlembicConfig.raw (config : AlembicConfig) (name : Text) : Option Text :=
  config.options.lookup (optionxform name) <|> config.defaults.lookup (optionxform name)

/-- `ConfigParser.get` from that section. -/
def AlembicConfig.get (config : AlembicConfig) (name : Text) :
    Except InterpolationError (Option Text) :=
  match config.raw name with
  | none => .ok none
  | some value => (beforeGet config.raw value).map some

/-- `script_location or settings.migrations_script_location`. -/
def locationOf (settings : DatabaseSettings) : Option Text → Text
  | some location => if location = [] then settings.migrationsScriptLocation else location
  | none => settings.migrationsScriptLocation

/-- `build_alembic_config`, where Alembic's configuration starts with these values for every
section. -/
def buildAlembicConfig (defaults : List (Text × Text)) (settings : DatabaseSettings)
    (scriptLocation : Option Text) (versionTable iniSection : Text) :
    Except InterpolationError AlembicConfig := do
  let config : AlembicConfig := { defaults }
  let config ← config.setMainOption "script_location".toList (locationOf settings scriptLocation)
  let config ← config.setMainOption "sqlalchemy.url".toList (double settings.syncDsn)
  let config ← config.setMainOption "version_table".toList versionTable
  return { config with configIniSection := iniSection }

/-! ## Reading -/

/-- What follows the `://` of a URL. -/
def afterScheme : Text → Option Text
  | [] => none
  | ':' :: '/' :: '/' :: rest => some rest
  | _ :: rest => afterScheme rest

/-- The authority of a URL ends at the first of these. -/
def inAuthority (c : Char) : Bool := c ≠ '/' && c ≠ '?' && c ≠ '#'

/-- The credentials a parser reads from a URL: it cuts the authority at an at sign and what is
before that at the first colon, and decodes the escapes in the two parts. -/
def credentials (cut : Text → Text × Text) (url : Text) : Option (Text × Text) :=
  match afterScheme url with
  | none => none
  | some rest =>
      let authority := rest.takeWhile inAuthority
      if '@' ∈ authority then
        let userinfo := (cut authority).1
        some (unquote (partition ':' userinfo).1, unquote (partition ':' userinfo).2)
      else none

/-- A parser gets user and password from the DSN, whether it takes the first at sign for the end
of the userinfo or, for a host that has none, the last one. -/
structure ReadsBack (settings : DatabaseSettings) (dsn : Text) : Prop where
  first : credentials (partition '@') dsn = some (settings.user, settings.password)
  last : '@' ∉ settings.host →
    credentials (rpartition '@') dsn = some (settings.user, settings.password)

/-! ## What is read back -/

theorem notMem_quote {d : Char} {content : Text} (delimiter : isAlwaysSafe d = false)
    (other : d ≠ '%') : d ∉ quote [] content := by
  intro member
  rcases mem_quote member with always | kept | percent
  · rw [delimiter] at always
    cases always
  · cases kept
  · exact other percent

theorem DatabaseSettings.notMem_auth (settings : DatabaseSettings) {d : Char}
    (delimiter : isAlwaysSafe d = false) (other : d ≠ '%') (colon : d ≠ ':') :
    d ∉ settings.auth := by
  intro member
  rcases List.mem_append.mp member with user | rest
  · exact notMem_quote delimiter other user
  · rcases List.mem_cons.mp rest with same | password
    · exact colon same
    · exact notMem_quote delimiter other password

theorem DatabaseSettings.inAuthority_of_mem_auth {settings : DatabaseSettings} {c : Char}
    (member : c ∈ settings.auth) : inAuthority c = true := by
  have slash : c ≠ '/' := ne_of_mem_of_not_mem member
    (settings.notMem_auth (by decide) (by decide) (by decide))
  have question : c ≠ '?' := ne_of_mem_of_not_mem member
    (settings.notMem_auth (by decide) (by decide) (by decide))
  have hash : c ≠ '#' := ne_of_mem_of_not_mem member
    (settings.notMem_auth (by decide) (by decide) (by decide))
  simp [inAuthority, slash, question, hash]

theorem afterScheme_append {scheme : Text} (plain : ':' ∉ scheme) (rest : Text) :
    afterScheme (scheme ++ "://".toList ++ rest) = some rest := by
  induction scheme with
  | nil => rfl
  | cons c scheme ih =>
      rw [List.mem_cons, not_or] at plain
      rw [List.cons_append, List.cons_append, afterScheme, ih plain.2]
      rintro later rfl
      exact absurd rfl plain.1

/-- The characters before a cut of a list that ends there at the latest. -/
theorem mem_of_mem_takeWhile_append {keeps : Char → Bool} {front rest : Text} {s c : Char}
    (ends : keeps s = false) (member : c ∈ (front ++ s :: rest).takeWhile keeps) : c ∈ front := by
  induction front with
  | nil =>
      rw [List.nil_append, List.takeWhile_cons_of_neg (by rw [ends]; exact Bool.false_ne_true)]
        at member
      cases member
  | cons a front ih =>
      rw [List.cons_append] at member
      cases kept : keeps a with
      | false =>
          rw [List.takeWhile_cons_of_neg (by rw [kept]; exact Bool.false_ne_true)] at member
          cases member
      | true =>
          rw [List.takeWhile_cons_of_pos kept] at member
          rcases List.mem_cons.mp member with rfl | later
          · exact List.mem_cons_self
          · exact List.mem_cons_of_mem a (ih later)

theorem at_notMem_print (port : ℤ) : '@' ∉ Numerals.print port := by
  have digits : ∀ n : ℕ, '@' ∉ Nat.toDigits 10 n := by
    intro n member
    exact absurd (Numerals.isDigit_of_mem_toDigits member) (by decide)
  cases port with
  | ofNat n => exact digits n
  | negSucc n =>
      intro member
      rcases List.mem_cons.mp member with sign | digit
      · exact absurd sign (by decide)
      · exact digits (n + 1) digit

/-- The authority of a DSN: the credentials, an at sign, and what is read as host and port. -/
theorem authority_dsn (settings : DatabaseSettings) {driver : Text} (plain : ':' ∉ driver) :
    ∃ rest hostPort, afterScheme (settings.dsn driver) = some rest ∧
      rest.takeWhile inAuthority = settings.auth ++ '@' :: hostPort ∧
      ('@' ∉ settings.host → '@' ∉ hostPort) := by
  have scheme : ':' ∉ "postgresql+".toList ++ driver := by
    intro member
    rcases List.mem_append.mp member with name | inside
    · exact absurd name (by decide)
    · exact plain inside
  let tail := settings.host ++ ':' :: Numerals.print settings.port ++ '/' :: settings.db
  have whole : settings.dsn driver = ("postgresql+".toList ++ driver) ++ "://".toList ++
      (settings.auth ++ '@' :: tail) := List.append_assoc _ settings.auth _
  refine ⟨settings.auth ++ '@' :: tail, tail.takeWhile inAuthority, ?_, ?_, ?_⟩
  · rw [whole]
    exact afterScheme_append scheme _
  · have inside : ∀ c ∈ settings.auth, inAuthority c = true :=
      fun c member => DatabaseSettings.inAuthority_of_mem_auth member
    rw [List.takeWhile_append_of_pos inside, List.takeWhile_cons_of_pos (by decide)]
  · intro absent member
    have inside := mem_of_mem_takeWhile_append (by decide) member
    rcases List.mem_append.mp inside with host | rest
    · exact absent host
    · rcases List.mem_cons.mp rest with colon | port
      · exact absurd colon (by decide)
      · exact at_notMem_print settings.port port

/-- Whoever cuts the authority after the credentials reads them. -/
theorem credentials_of_cut {settings : DatabaseSettings} {cut : Text → Text × Text}
    {url rest hostPort : Text} (found : afterScheme url = some rest)
    (authority : rest.takeWhile inAuthority = settings.auth ++ '@' :: hostPort)
    (cuts : cut (settings.auth ++ '@' :: hostPort) = (settings.auth, hostPort)) :
    credentials cut url = some (settings.user, settings.password) := by
  have sign : '@' ∈ settings.auth ++ '@' :: hostPort :=
    List.mem_append_right _ List.mem_cons_self
  have colon : partition ':' settings.auth =
      (quote [] settings.user, quote [] settings.password) :=
    partition_append_cons (notMem_quote (by decide) (by decide)) _
  simp only [credentials, found, authority, cuts, if_pos sign, colon,
    unquote_quote List.not_mem_nil]

/-- **The credentials are read back from a DSN**, whatever the driver is. -/
theorem readsBack_dsn (settings : DatabaseSettings) {driver : Text} (plain : ':' ∉ driver) :
    ReadsBack settings (settings.dsn driver) := by
  obtain ⟨rest, hostPort, found, authority, absent⟩ := authority_dsn settings plain
  have signless : '@' ∉ settings.auth :=
    settings.notMem_auth (by decide) (by decide) (by decide)
  refine ⟨credentials_of_cut found authority (partition_append_cons signless hostPort), ?_⟩
  intro host
  exact credentials_of_cut found authority (rpartition_append_cons (absent host) settings.auth)

/-! ## Through the configuration -/

section Configured

variable {defaults : List (Text × Text)} {settings : DatabaseSettings}
  {scriptLocation : Option Text} {versionTable iniSection : Text}

theorem AlembicConfig.eq_of_setMainOption {config later : AlembicConfig} {name value : Text}
    (sets : config.setMainOption name value = .ok later) :
    later = { config with options := (optionxform name, value) :: config.options } := by
  rw [AlembicConfig.setMainOption, beforeSet] at sets
  split at sets
  · cases sets
  · exact (Except.ok.inj sets).symm

/-- **What Alembic is given**: the options as they were set, and the DSN with its percent signs
doubled. -/
theorem raw_of_buildAlembicConfig {config : AlembicConfig}
    (built : buildAlembicConfig defaults settings scriptLocation versionTable iniSection =
      .ok config) :
    config.raw "sqlalchemy.url".toList = some (double settings.syncDsn) := by
  obtain ⟨located, location, built⟩ := Outcome.bind_eq_ok.mp built
  obtain ⟨reached, url, built⟩ := Outcome.bind_eq_ok.mp built
  obtain ⟨named, table, built⟩ := Outcome.bind_eq_ok.mp built
  obtain rfl := Except.ok.inj built
  rw [AlembicConfig.eq_of_setMainOption table, AlembicConfig.eq_of_setMainOption url]
  rfl

/-- Only what the caller names can be refused. -/
theorem exists_buildAlembicConfig
    (location : beforeSet (locationOf settings scriptLocation) =
      .ok (locationOf settings scriptLocation))
    (table : beforeSet versionTable = .ok versionTable) :
    ∃ config, buildAlembicConfig defaults settings scriptLocation versionTable iniSection =
      .ok config := by
  simp only [buildAlembicConfig, AlembicConfig.setMainOption, location, table, beforeSet_double]
  exact ⟨_, rfl⟩

end Configured

/-- **The credentials survive every path.** For every user and password, whatever the other
settings are, a URL parser reads them back from the asynchronous and from the synchronous DSN, and
from what the `ConfigParser` returns for the DSN that `build_alembic_config` has stored. It stores
it whenever the other two values can be stored. -/
theorem credentials_survive (settings : DatabaseSettings) :
    ReadsBack settings settings.asyncDsn ∧ ReadsBack settings settings.syncDsn ∧
    ∀ defaults scriptLocation versionTable iniSection,
      (∀ config,
        buildAlembicConfig defaults settings scriptLocation versionTable iniSection = .ok config →
        ∃ dsn, config.get "sqlalchemy.url".toList = .ok (some dsn) ∧ ReadsBack settings dsn) ∧
      (beforeSet (locationOf settings scriptLocation) = .ok (locationOf settings scriptLocation) →
        beforeSet versionTable = .ok versionTable →
        ∃ config,
          buildAlembicConfig defaults settings scriptLocation versionTable iniSection =
            .ok config) := by
  have sync : ReadsBack settings settings.syncDsn := readsBack_dsn settings (by decide)
  refine ⟨readsBack_dsn settings (by decide), sync, ?_⟩
  intro defaults scriptLocation versionTable iniSection
  refine ⟨?_, exists_buildAlembicConfig⟩
  intro config built
  refine ⟨settings.syncDsn, ?_, sync⟩
  simp only [AlembicConfig.get, raw_of_buildAlembicConfig built, beforeGet_double]
  rfl

/-- Credentials made of delimiters, escapes and letters outside ASCII. -/
def awkward : DatabaseSettings where
  user := "ap p@%40:/".toList
  password := "%%(here)s +ß€".toList

/-- **Through Alembic's configuration**, with the defaults of `build_alembic_config`. -/
theorem credentials_survive_awkward :
    ∃ config dsn,
      buildAlembicConfig [] awkward none "alembic_version".toList "alembic".toList = .ok config ∧
      config.get "sqlalchemy.url".toList = .ok (some dsn) ∧
      credentials (partition '@') dsn = some (awkward.user, awkward.password) ∧
      credentials (rpartition '@') dsn = some (awkward.user, awkward.password) := by
  obtain ⟨-, -, configured⟩ := credentials_survive awkward
  obtain ⟨read, stored⟩ := configured [] none "alembic_version".toList "alembic".toList
  obtain ⟨config, built⟩ :=
    stored (beforeSet_of_notMem (by decide)) (beforeSet_of_notMem (by decide))
  obtain ⟨dsn, got, back⟩ := read config built
  exact ⟨config, dsn, built, got, back.first, back.last (by decide)⟩

end PyCommon.Dsn
