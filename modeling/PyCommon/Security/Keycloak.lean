import Mathlib.Data.Finset.Basic
import Mathlib.Data.Rat.Defs
import PyCommon.Lib.Json
import PyCommon.Lib.Outcomes

/-!
# Keycloak access tokens

`KeycloakTokenValidator.decode` and the key check of `internal_router`. What the JWKS
client and `jwt.decode` make of a token is a parameter: at each of the two attempts it is
a payload, which is any JSON object, a `PyJWKClientError`, or another `PyJWTError`.

A refresh of the JWKS is forced at most once, and only after a `PyJWKClientError`; claims
are returned only for a client the service accepts. Whatever fails up to there is a 401.
After it the payload is taken apart, and a claim that is missing or of another type than
expected raises something else. `fails_closed_iff` says for which payloads, and for which
keys: `compare_digest` refuses text that is not ASCII.
-/

set_option autoImplicit false

namespace PyCommon.Keycloak

open CodePoints (Text text)
open Json (Value)
open Outcome (bind_eq_ok)

/-! ## Claims -/

/-- The payload of a token: the members of a JSON object. -/
abbrev Payload := List (Text × Value)

structure TokenClaims where
  sub : Text
  email : Option Text := none
  preferredUsername : Option Text := none
  name : Option Text := none
  realmRoles : List Text := []
  clientRoles : List Text := []
  scopes : List Text := []
  raw : Payload := []

/-- Realm and client roles as one set. -/
def TokenClaims.roles (claims : TokenClaims) : Finset Text :=
  claims.realmRoles.toFinset ∪ claims.clientRoles.toFinset

structure KeycloakSettings where
  clientId : Text
  jwksCacheTtlSeconds : ℤ := 3600
  allowedAzp : List Text := []

/-! ## Exceptions -/

/-- What Python raises where a value is not of the shape that is expected. -/
inductive ShapeError where
  | keyError
  | attributeError
  | typeError
  | validationError
  deriving DecidableEq

inductive Exc where
  | http (statusCode : ℤ) (detail : String) (headers : List (String × String))
  | shape (e : ShapeError)
  deriving DecidableEq

/-- A 401 carrying the bearer challenge. -/
def unauthorized (detail : String) : Exc := .http 401 detail [("WWW-Authenticate", "Bearer")]

/-- `jwt.PyJWTError`, which `PyJWKClientError` is one of. -/
inductive PyJWTError where
  | jwkClientError
  | other
  deriving DecidableEq

/-! ## Decoding -/

/-- What an attempt finds, by whether it forces a refresh: the clock, and what the JWKS
client and `jwt.decode` make of the token. -/
structure Attempt where
  now : Bool → ℚ
  verify : Bool → Except PyJWTError Payload

/-- `_get_jwks_client`, by the time at which the client it returns was made. -/
def getJwksClient (settings : KeycloakSettings) (now : ℚ) (forceRefresh : Bool) :
    Option ℚ → ℚ
  | none => now
  | some fetchedAt =>
      if forceRefresh ∨ now - fetchedAt > settings.jwksCacheTtlSeconds then now else fetchedAt

/-- What `decode` did and how it ended. -/
structure Decoding (α : Type) where
  /-- The `force_refresh` of each `_decode_once`. -/
  attempts : List Bool
  fetchedAt : ℚ
  result : Except Exc α

/-- The two attempts of `decode`. -/
def verified (settings : KeycloakSettings) (attempt : Attempt) (fetchedAt : Option ℚ) :
    Decoding Payload :=
  let first := getJwksClient settings (attempt.now false) false fetchedAt
  match attempt.verify false with
  | .ok payload => ⟨[false], first, .ok payload⟩
  | .error .jwkClientError =>
      let second := getJwksClient settings (attempt.now true) true (some first)
      match attempt.verify true with
      | .ok payload => ⟨[false, true], second, .ok payload⟩
      | .error _ => ⟨[false, true], second, .error (unauthorized "Invalid or expired token")⟩
  | .error .other => ⟨[false], first, .error (unauthorized "Invalid or expired token")⟩

/-- `payload.get(name)`. -/
def get (members : Payload) (name : Text) : Value := (members.lookup name).getD .null

/-- `payload[name]`. -/
def getItem (members : Payload) (name : Text) : Except ShapeError Value :=
  match members.lookup name with
  | some value => .ok value
  | none => .error .keyError

/-- `payload.get("azp") in settings.allowed_azp`. -/
def azpAllowed (settings : KeycloakSettings) (payload : Payload) : Bool :=
  match get payload (text "azp") with
  | .str client => settings.allowedAzp.contains client
  | _ => false

/-- `bool(value)`. -/
def truthy : Value → Bool
  | .null => false
  | .bool b => b
  | .int n => n ≠ 0
  | .float repr => repr ≠ text "0.0" ∧ repr ≠ text "-0.0"
  | .str content => !content.isEmpty
  | .list items => !items.isEmpty
  | .dict members => !members.isEmpty

/-- `value or default`. -/
def orElse (value default : Value) : Value := if truthy value then value else default

/-- `value.get(name)`. -/
def getAttr (value : Value) (name : Text) : Except ShapeError Value :=
  match value with
  | .dict members => .ok (get members name)
  | _ => .error .attributeError

/-- `list(value)`. -/
def listOf : Value → Except ShapeError (List Value)
  | .list items => .ok items
  | .str content => .ok (content.map fun c => .str [c])
  | .dict members => .ok (members.map fun member => .str member.1)
  | _ => .error .typeError

/-- A field of type `str`. -/
def strField : Value → Except ShapeError Text
  | .str content => .ok content
  | _ => .error .validationError

/-- A field of type `str | None`. -/
def optionalField : Value → Except ShapeError (Option Text)
  | .null => .ok none
  | .str content => .ok (some content)
  | _ => .error .validationError

/-- `str.isspace` of a character. -/
def isSpace (c : ℕ) : Bool :=
  (0x09 ≤ c ∧ c ≤ 0x0D) || (0x1C ≤ c ∧ c ≤ 0x20) || c = 0x85 || c = 0xA0 || c = 0x1680 ||
    (0x2000 ≤ c ∧ c ≤ 0x200A) || c = 0x2028 || c = 0x2029 || c = 0x202F || c = 0x205F || c = 0x3000

/-- The words of a text, after the part of a word that was read. -/
def words (word : Text) : Text → List Text
  | [] => if word.isEmpty then [] else [word]
  | c :: rest =>
      if isSpace c then if word.isEmpty then words [] rest else word :: words [] rest
      else words (word ++ [c]) rest

/-- `str.split()`. -/
def split (content : Text) : List Text := words [] content

/-- The payload of a token as claims. -/
def claimsOf (settings : KeycloakSettings) (payload : Payload) :
    Except ShapeError TokenClaims := do
  let realmAccess := orElse (get payload (text "realm_access")) (.dict [])
  let resourceAccess := orElse (get payload (text "resource_access")) (.dict [])
  let client ← getAttr resourceAccess settings.clientId
  let clientRoles ← getAttr (orElse client (.dict [])) (text "roles")
  let scopes := match get payload (text "scope") with
    | .str content => split content
    | _ => []
  let sub ← getItem payload (text "sub")
  let realmRoles ← getAttr realmAccess (text "roles")
  let realmRoles ← listOf (orElse realmRoles (.list []))
  let clientRoles ← listOf (orElse clientRoles (.list []))
  let sub ← strField sub
  let email ← optionalField (get payload (text "email"))
  let preferredUsername ← optionalField (get payload (text "preferred_username"))
  let name ← optionalField (get payload (text "name"))
  let realmRoles ← realmRoles.mapM strField
  let clientRoles ← clientRoles.mapM strField
  return { sub, email, preferredUsername, name, realmRoles, clientRoles, scopes, raw := payload }

/-- What `decode` does with a payload. -/
def admitted (settings : KeycloakSettings) (payload : Payload) : Except Exc TokenClaims :=
  if settings.allowedAzp ≠ [] ∧ !azpAllowed settings payload then
    .error (unauthorized "Token was not issued to a client this service accepts")
  else (claimsOf settings payload).mapError .shape

/-- `decode`. -/
def decode (settings : KeycloakSettings) (attempt : Attempt) (fetchedAt : Option ℚ) :
    Decoding TokenClaims :=
  let decoding := verified settings attempt fetchedAt
  { decoding with result := decoding.result.bind (admitted settings) }

/-! ## The key of internal routes -/

def isAscii (content : Text) : Bool := content.all (· < 0x80)

/-- `secrets.compare_digest` of two strings. -/
def compareDigest (first second : Text) : Except ShapeError Bool :=
  if isAscii first && isAscii second then .ok (first == second) else .error .typeError

/-- `check_api_key`, where a key is expected. -/
def checkApiKey (expected : Text) (provided : Option Text) : Except Exc Unit :=
  match provided with
  | none => .error (.http 401 "Invalid API key" [])
  | some provided =>
      match compareDigest provided expected with
      | .error e => .error (.shape e)
      | .ok false => .error (.http 401 "Invalid API key" [])
      | .ok true => .ok ()

/-! ## Failing closed -/

/-- The caller is admitted, or is refused with a 401. -/
def FailsClosed {α : Type} (result : Except Exc α) : Prop :=
  (∃ value, result = .ok value) ∨ ∃ detail headers, result = .error (.http 401 detail headers)

/-- What authentication promises of a token and of a key. -/
structure Authenticates (settings : KeycloakSettings) (attempt : Attempt) (fetchedAt : Option ℚ)
    (expected : Text) (provided : Option Text) : Prop where
  token : FailsClosed (decode settings attempt fetchedAt).result
  key : FailsClosed (checkApiKey expected provided)
  once : (decode settings attempt fetchedAt).attempts.count true ≤ 1
  afterClientError : true ∈ (decode settings attempt fetchedAt).attempts →
    attempt.verify false = .error .jwkClientError
  fromAllowedClient : settings.allowedAzp ≠ [] → ∀ claims,
    (decode settings attempt fetchedAt).result = .ok claims →
      ∃ client ∈ settings.allowedAzp, claims.raw.lookup (text "azp") = some (.str client)

/-! ### The shape of a payload -/

/-- What `list(value or [])` makes strings of: no roles, a list of strings, or a text or an
object, which are taken for the lists of their characters and of their keys. -/
def Roles (value : Value) : Prop :=
  truthy value = false ∨ match value with
    | .list items => ∀ item ∈ items, ∃ content, item = .str content
    | .str _ | .dict _ => True
    | _ => False

/-- An object with roles, if anything. -/
def Holder (value : Value) : Prop :=
  truthy value = false ∨ ∃ members, value = .dict members ∧ Roles (get members (text "roles"))

/-- A text or `null`. -/
def OptionalText : Value → Prop
  | .null | .str _ => True
  | _ => False

/-- A payload with a claim `sub` whose claims are of the shapes that are expected. -/
structure Shaped (settings : KeycloakSettings) (payload : Payload) : Prop where
  sub : ∃ content, payload.lookup (text "sub") = some (.str content)
  email : OptionalText (get payload (text "email"))
  preferredUsername : OptionalText (get payload (text "preferred_username"))
  name : OptionalText (get payload (text "name"))
  realmAccess : Holder (get payload (text "realm_access"))
  resourceAccess : truthy (get payload (text "resource_access")) = false ∨
    ∃ members, get payload (text "resource_access") = .dict members ∧
      Holder (get members settings.clientId)

theorem strField_iff {value : Value} :
    (∃ content, strField value = .ok content) ↔ ∃ content, value = .str content := by
  cases value with
  | str content => exact ⟨fun _ => ⟨content, rfl⟩, fun _ => ⟨content, rfl⟩⟩
  | _ =>
      constructor
      · rintro ⟨content, made⟩
        cases made
      · rintro ⟨content, same⟩
        cases same

theorem optionalField_iff {value : Value} :
    (∃ content, optionalField value = .ok content) ↔ OptionalText value := by
  cases value with
  | null => exact ⟨fun _ => trivial, fun _ => ⟨none, rfl⟩⟩
  | str content => exact ⟨fun _ => trivial, fun _ => ⟨some content, rfl⟩⟩
  | _ =>
      refine ⟨?_, fun optional => optional.elim⟩
      rintro ⟨content, made⟩
      cases made

theorem strFields_iff {values : List Value} :
    (∃ contents, values.mapM strField = .ok contents) ↔
      ∀ value ∈ values, ∃ content, value = .str content := by
  induction values with
  | nil => exact ⟨fun _ => List.forall_mem_nil _, fun _ => ⟨[], rfl⟩⟩
  | cons value rest ih =>
      rw [List.forall_mem_cons, ← strField_iff, ← ih]
      simp only [List.mapM_cons, bind_eq_ok]
      constructor
      · rintro ⟨_, content, first, contents, later, -⟩
        exact ⟨⟨content, first⟩, contents, later⟩
      · rintro ⟨⟨content, first⟩, contents, later⟩
        exact ⟨_, content, first, contents, later, rfl⟩

/-- The roles of an object are read if they are of the expected shape. -/
theorem roles_iff {value : Value} :
    (∃ items, listOf (orElse value (.list [])) = .ok items ∧
        ∃ roles, items.mapM strField = .ok roles) ↔ Roles value := by
  simp only [strFields_iff, Roles]
  cases falsy : truthy value with
  | false =>
      refine ⟨fun _ => .inl rfl, fun _ => ⟨[], ?_, List.forall_mem_nil _⟩⟩
      rw [orElse, falsy]
      rfl
  | true =>
      have self : orElse value (.list []) = value := by
        rw [orElse, falsy]
        rfl
      rw [self]
      simp only [Bool.true_eq_false, false_or]
      cases value with
      | list items =>
          constructor
          · rintro ⟨_, made, strings⟩
            obtain rfl := Except.ok.inj made
            exact strings
          · intro strings
            exact ⟨items, rfl, strings⟩
      | str content =>
          refine ⟨fun _ => trivial, fun _ => ⟨_, rfl, fun value member => ?_⟩⟩
          obtain ⟨c, -, rfl⟩ := List.mem_map.mp member
          exact ⟨[c], rfl⟩
      | dict members =>
          refine ⟨fun _ => trivial, fun _ => ⟨_, rfl, fun value member => ?_⟩⟩
          obtain ⟨pair, -, rfl⟩ := List.mem_map.mp member
          exact ⟨pair.1, rfl⟩
      | _ =>
          refine ⟨?_, fun roles => roles.elim⟩
          rintro ⟨items, made, -⟩
          cases made

/-- Something is read of a value, or of an empty object in its place. -/
theorem getAttr_iff (value : Value) (name : Text) {fit : Value → Prop} (null : fit .null) :
    (∃ found, getAttr (orElse value (.dict [])) name = .ok found ∧ fit found) ↔
      truthy value = false ∨ ∃ members, value = .dict members ∧ fit (get members name) := by
  cases falsy : truthy value with
  | false =>
      refine ⟨fun _ => .inl rfl, fun _ => ⟨.null, ?_, null⟩⟩
      rw [orElse, falsy]
      rfl
  | true =>
      have self : orElse value (.dict []) = value := by
        rw [orElse, falsy]
        rfl
      rw [self]
      simp only [Bool.true_eq_false, false_or]
      cases value with
      | dict members =>
          constructor
          · rintro ⟨_, made, good⟩
            obtain rfl := Except.ok.inj made
            exact ⟨members, rfl, good⟩
          · rintro ⟨_, same, good⟩
            obtain rfl := Value.dict.inj same
            exact ⟨_, rfl, good⟩
      | _ =>
          constructor
          · rintro ⟨_, made, -⟩
            cases made
          · rintro ⟨_, same, -⟩
            cases same

theorem roles_null : Roles .null := .inl rfl

theorem holder_null : Holder .null := .inl rfl

/-- The roles of an object are read if it is one, or nothing. -/
theorem holder_iff {value : Value} :
    (∃ found, getAttr (orElse value (.dict [])) (text "roles") = .ok found ∧ Roles found) ↔
      Holder value :=
  getAttr_iff value (text "roles") roles_null

theorem sub_iff {payload : Payload} :
    (∃ sub, getItem payload (text "sub") = .ok sub ∧ ∃ content, strField sub = .ok content) ↔
      ∃ content, payload.lookup (text "sub") = some (.str content) := by
  simp only [strField_iff, getItem]
  cases payload.lookup (text "sub") with
  | none => simp
  | some value => simp

/-- **Which payloads become claims.** -/
theorem claimsOf_iff {settings : KeycloakSettings} {payload : Payload} :
    (∃ claims, claimsOf settings payload = .ok claims) ↔ Shaped settings payload := by
  have resource := getAttr_iff (get payload (text "resource_access")) settings.clientId holder_null
  simp only [claimsOf, bind_eq_ok]
  constructor
  · rintro ⟨_, client, ofResource, clientRoles, ofClient, sub, present, realmRoles, ofRealm,
      realmItems, realmListed, clientItems, clientListed, subject, subjectRead, email, emailRead,
      preferred, preferredRead, name, nameRead, realm, realmRead, clientTexts, clientRead, -⟩
    refine ⟨sub_iff.mp ⟨_, present, _, subjectRead⟩, optionalField_iff.mp ⟨_, emailRead⟩,
      optionalField_iff.mp ⟨_, preferredRead⟩, optionalField_iff.mp ⟨_, nameRead⟩, ?_, ?_⟩
    · exact holder_iff.mp ⟨_, ofRealm, roles_iff.mp ⟨_, realmListed, _, realmRead⟩⟩
    · refine resource.mp ⟨_, ofResource, holder_iff.mp ⟨_, ofClient, ?_⟩⟩
      exact roles_iff.mp ⟨_, clientListed, _, clientRead⟩
  · intro shaped
    obtain ⟨sub, present, subject, subjectRead⟩ := sub_iff.mpr shaped.sub
    obtain ⟨email, emailRead⟩ := optionalField_iff.mpr shaped.email
    obtain ⟨preferred, preferredRead⟩ := optionalField_iff.mpr shaped.preferredUsername
    obtain ⟨name, nameRead⟩ := optionalField_iff.mpr shaped.name
    obtain ⟨realmRoles, ofRealm, realmFit⟩ := holder_iff.mpr shaped.realmAccess
    obtain ⟨realmItems, realmListed, realm, realmRead⟩ := roles_iff.mpr realmFit
    obtain ⟨client, ofResource, clientFit⟩ := resource.mpr shaped.resourceAccess
    obtain ⟨clientRoles, ofClient, rolesFit⟩ := holder_iff.mpr clientFit
    obtain ⟨clientItems, clientListed, clientTexts, clientRead⟩ := roles_iff.mpr rolesFit
    exact ⟨_, client, ofResource, clientRoles, ofClient, sub, present, realmRoles, ofRealm,
      realmItems, realmListed, clientItems, clientListed, subject, subjectRead, email, emailRead,
      preferred, preferredRead, name, nameRead, realm, realmRead, clientTexts, clientRead, rfl⟩

theorem raw_of_claimsOf {settings : KeycloakSettings} {payload : Payload} {claims : TokenClaims}
    (made : claimsOf settings payload = .ok claims) : claims.raw = payload := by
  simp only [claimsOf, bind_eq_ok] at made
  obtain ⟨_, -, _, -, _, -, _, -, _, -, _, -, _, -, _, -, _, -, _, -, _, -, _, -, same⟩ := made
  obtain rfl := Except.ok.inj same
  rfl

/-! ### The two attempts -/

/-- The payload that is verified, if one is. -/
def Attempt.payload (attempt : Attempt) : Option Payload :=
  match attempt.verify false with
  | .ok payload => some payload
  | .error .jwkClientError => (attempt.verify true).toOption
  | .error .other => none

/-- **What the attempts give.** A refresh is forced once, after a `PyJWKClientError`, or
never; and they end with the payload, or with a 401. -/
theorem verified_cases (settings : KeycloakSettings) (attempt : Attempt) (fetchedAt : Option ℚ) :
    ((verified settings attempt fetchedAt).attempts = [false] ∨
        attempt.verify false = .error .jwkClientError ∧
          (verified settings attempt fetchedAt).attempts = [false, true]) ∧
      ((∃ payload, attempt.payload = some payload ∧
          (verified settings attempt fetchedAt).result = .ok payload) ∨
        attempt.payload = none ∧ (verified settings attempt fetchedAt).result =
          .error (unauthorized "Invalid or expired token")) := by
  unfold verified Attempt.payload
  rcases attempt.verify false with e | payload
  · cases e with
    | jwkClientError =>
        rcases attempt.verify true with e | payload
        · exact ⟨.inr ⟨rfl, rfl⟩, .inr ⟨rfl, rfl⟩⟩
        · exact ⟨.inr ⟨rfl, rfl⟩, .inl ⟨payload, rfl, rfl⟩⟩
    | other => exact ⟨.inl rfl, .inr ⟨rfl, rfl⟩⟩
  · exact ⟨.inl rfl, .inl ⟨payload, rfl, rfl⟩⟩

theorem unauthorized_failsClosed {α : Type} (detail : String) :
    FailsClosed (.error (unauthorized detail) : Except Exc α) :=
  .inr ⟨detail, _, rfl⟩

theorem not_failsClosed_shape {α : Type} (e : ShapeError) :
    ¬ FailsClosed (.error (.shape e) : Except Exc α) := by
  rintro (⟨value, same⟩ | ⟨detail, headers, same⟩)
  · cases same
  · cases same

/-- The client of a token is one that the service accepts. -/
def Accepts (settings : KeycloakSettings) (payload : Payload) : Prop :=
  settings.allowedAzp = [] ∨
    ∃ client ∈ settings.allowedAzp, payload.lookup (text "azp") = some (.str client)

theorem azpAllowed_iff {settings : KeycloakSettings} {payload : Payload} :
    azpAllowed settings payload ↔
      ∃ client ∈ settings.allowedAzp, payload.lookup (text "azp") = some (.str client) := by
  unfold azpAllowed get
  cases payload.lookup (text "azp") with
  | none => simp
  | some value =>
      cases value with
      | str client => simp
      | _ => simp

theorem admitted_of_accepts {settings : KeycloakSettings} {payload : Payload}
    (accepts : Accepts settings payload) :
    admitted settings payload = (claimsOf settings payload).mapError .shape := by
  rw [admitted, if_neg]
  rintro ⟨listed, refused⟩
  rcases accepts with open_ | allowed
  · exact listed open_
  · rw [azpAllowed_iff.mpr allowed] at refused
    cases refused

theorem admitted_of_not_accepts {settings : KeycloakSettings} {payload : Payload}
    (foreign : ¬ Accepts settings payload) : admitted settings payload =
      .error (unauthorized "Token was not issued to a client this service accepts") := by
  refine if_pos ⟨fun open_ => foreign (.inl open_), ?_⟩
  rw [Bool.not_eq_true', ← Bool.not_eq_true]
  exact fun allowed => foreign (.inr (azpAllowed_iff.mp allowed))

/-- A payload fails closed unless its client is accepted and a claim is misshapen. -/
theorem admitted_failsClosed_iff {settings : KeycloakSettings} {payload : Payload} :
    FailsClosed (admitted settings payload) ↔
      (Accepts settings payload → Shaped settings payload) := by
  by_cases accepts : Accepts settings payload
  · rw [admitted_of_accepts accepts, ← claimsOf_iff]
    cases claimsOf settings payload with
    | error e =>
        refine ⟨fun closed => absurd closed (not_failsClosed_shape e), fun shaped => ?_⟩
        obtain ⟨claims, made⟩ := shaped accepts
        cases made
    | ok claims => exact ⟨fun _ _ => ⟨claims, rfl⟩, fun _ => .inl ⟨claims, rfl⟩⟩
  · rw [admitted_of_not_accepts accepts]
    exact ⟨fun _ accepted => absurd accepted accepts, fun _ => unauthorized_failsClosed _⟩

/-! ### Tokens and keys -/

/-- Texts that `compare_digest` compares. -/
def Comparable (expected : Text) (provided : Option Text) : Prop :=
  ∀ key ∈ provided, isAscii key && isAscii expected

theorem checkApiKey_failsClosed_iff {expected : Text} {provided : Option Text} :
    FailsClosed (checkApiKey expected provided) ↔ Comparable expected provided := by
  cases provided with
  | none =>
      refine ⟨fun _ key given => ?_, fun _ => .inr ⟨_, _, rfl⟩⟩
      cases given
  | some key =>
      simp only [checkApiKey, compareDigest, Comparable, Option.mem_some_iff, forall_eq']
      cases isAscii key && isAscii expected with
      | false =>
          refine ⟨fun closed => absurd closed (not_failsClosed_shape _), fun ascii => ?_⟩
          cases ascii
      | true =>
          refine ⟨fun _ => rfl, fun _ => ?_⟩
          cases key == expected with
          | true => exact .inl ⟨(), rfl⟩
          | false => exact .inr ⟨_, _, rfl⟩

theorem decode_failsClosed_iff {settings : KeycloakSettings} {attempt : Attempt}
    {fetchedAt : Option ℚ} :
    FailsClosed (decode settings attempt fetchedAt).result ↔
      ∀ payload ∈ attempt.payload, Accepts settings payload → Shaped settings payload := by
  obtain ⟨-, ends⟩ := verified_cases settings attempt fetchedAt
  rw [decode]
  rcases ends with ⟨payload, found, result⟩ | ⟨none_, result⟩
  · simp only [result, found, Option.mem_some_iff, forall_eq']
    exact admitted_failsClosed_iff
  · simp only [result, none_]
    refine ⟨fun _ payload given => ?_, fun _ => unauthorized_failsClosed _⟩
    cases given

/-- **When authentication fails closed.** Of every token and every key: the caller is
admitted or refused with a 401, a refresh of the JWKS is forced at most once and only
after a `PyJWKClientError`, and claims are only those of an accepted client, exactly if the
verified payload of an accepted client is of the expected shape and the keys are ASCII. -/
theorem fails_closed_iff (settings : KeycloakSettings) (attempt : Attempt)
    (fetchedAt : Option ℚ) (expected : Text) (provided : Option Text) :
    Authenticates settings attempt fetchedAt expected provided ↔
      (∀ payload ∈ attempt.payload, Accepts settings payload → Shaped settings payload) ∧
        Comparable expected provided := by
  obtain ⟨attempts, ends⟩ := verified_cases settings attempt fetchedAt
  constructor
  · intro closed
    exact ⟨decode_failsClosed_iff.mp closed.token, checkApiKey_failsClosed_iff.mp closed.key⟩
  · rintro ⟨shaped, comparable⟩
    refine ⟨decode_failsClosed_iff.mpr shaped, checkApiKey_failsClosed_iff.mpr comparable,
      ?_, ?_, ?_⟩
    · change (verified settings attempt fetchedAt).attempts.count true ≤ 1
      rcases attempts with once | ⟨-, twice⟩
      · rw [once]
        decide
      · rw [twice]
        decide
    · intro forced
      change true ∈ (verified settings attempt fetchedAt).attempts at forced
      rcases attempts with once | ⟨clientError, -⟩
      · rw [once] at forced
        exact absurd forced (by decide)
      · exact clientError
    · intro listed claims made
      change (verified settings attempt fetchedAt).result.bind (admitted settings) =
        .ok claims at made
      rcases ends with ⟨payload, -, result⟩ | ⟨-, result⟩
      · rw [result] at made
        change admitted settings payload = .ok claims at made
        by_cases accepts : Accepts settings payload
        · rw [admitted_of_accepts accepts] at made
          have raw : claims.raw = payload := by
            cases mapped : claimsOf settings payload with
            | error e =>
                rw [mapped] at made
                cases made
            | ok found =>
                rw [mapped] at made
                obtain rfl := Except.ok.inj made
                exact raw_of_claimsOf mapped
          rw [raw]
          exact accepts.resolve_left listed
        · rw [admitted_of_not_accepts accepts] at made
          cases made
      · rw [result] at made
        cases made

/-- A token whose signature is good. -/
def signed (payload : Payload) : Attempt := ⟨fun _ => 0, fun _ => .ok payload⟩

/-- **A token without a `sub` raises a `KeyError`**, though its signature, its issuer and
its audience are good. -/
theorem missing_sub_raises :
    (decode { clientId := text "app-api" } (signed [(text "azp", .str (text "web"))]) none).result =
        .error (.shape .keyError) ∧
      ¬ Authenticates { clientId := text "app-api" } (signed [(text "azp", .str (text "web"))])
        none (text "secret") (some (text "secret")) := by
  have raised : (decode { clientId := text "app-api" }
      (signed [(text "azp", .str (text "web"))]) none).result = .error (.shape .keyError) := rfl
  refine ⟨raised, fun closed => ?_⟩
  have token := closed.token
  rw [raised] at token
  exact not_failsClosed_shape .keyError token

/-- **A key that is not ASCII raises a `TypeError`**, whatever key is expected. -/
theorem checkApiKey_of_not_ascii {expected provided : Text} (foreign : isAscii provided = false) :
    checkApiKey expected (some provided) = .error (.shape .typeError) := by
  rw [checkApiKey, compareDigest, foreign]
  rfl

end PyCommon.Keycloak
