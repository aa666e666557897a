import PyCommon.Security.Describe

/-!
# What a decision depends on

A token carries grants for every client of its realm, and claims of every kind. A service
decides on three entries of it: the roles under `realm_access`, the roles under its own client
in `resource_access`, and `scope`.

The roles and scopes that `decode` reads off an accepted payload are functions of these
entries alone (`grants_of_claimsOf`), and a requirement without `Custom` decides on the roles and
scopes alone (`value_congr`). So two tokens that agree on the three entries are decided alike,
whatever else is in them (`foreign_grants_do_not_leak`).
-/

set_option autoImplicit false

namespace PyCommon.Requirements

open CodePoints (Text text)
open ErrorHandlers (HTTPException)
open Json (Value)
open Keycloak
open Outcome (bind_eq_ok)

/-! ## The entries that are read -/

/-- The entry at a path of names; `null` where there is none. -/
def entry : Value → List Text → Value
  | value, [] => value
  | .dict members, name :: path => entry (get members name) path
  | _, _ :: _ => .null

/-- The paths of the entries that grant something. -/
def grantPaths (settings : KeycloakSettings) : List (List Text) :=
  [[text "realm_access", text "roles"],
   [text "resource_access", settings.clientId, text "roles"],
   [text "scope"]]

/-- Two payloads agree on what is granted to this service. -/
def SameGrants (settings : KeycloakSettings) (first second : Payload) : Prop :=
  ∀ path ∈ grantPaths settings, entry (.dict first) path = entry (.dict second) path

theorem entry_null (path : List Text) : entry .null path = .null := by
  cases path with
  | nil => rfl
  | cons name path => rfl

/-- What is read of a value, or of an empty object in its place, is the entry. -/
theorem entry_of_getAttr {value found : Value} {name : Text}
    (read : getAttr (orElse value (.dict [])) name = .ok found) (path : List Text) :
    entry value (name :: path) = entry found path := by
  cases falsy : truthy value with
  | false =>
      rw [orElse, falsy] at read
      obtain rfl : Value.null = found := Except.ok.inj read
      rw [entry_null]
      cases value with
      | dict members =>
          have none_ : members = [] := by simpa [truthy] using falsy
          rw [none_, entry]
          exact entry_null path
      | _ => rfl
  | true =>
      rw [orElse, falsy, if_pos rfl] at read
      cases value with
      | dict members =>
          obtain rfl := Except.ok.inj read
          rfl
      | _ => cases read

/-! ## What is granted -/

/-- The roles at an entry. -/
def rolesAt (value : Value) : Except ShapeError (List Text) := do
  let items ← listOf (orElse value (.list []))
  items.mapM strField

/-- The scopes at an entry. -/
def scopesAt : Value → List Text
  | .str content => split content
  | _ => []

/-- The grants of an accepted payload are those at the three entries. -/
theorem grants_of_claimsOf {settings : KeycloakSettings} {payload : Payload} {claims : TokenClaims}
    (made : claimsOf settings payload = .ok claims) :
    rolesAt (entry (.dict payload) [text "realm_access", text "roles"]) = .ok claims.realmRoles ∧
      rolesAt (entry (.dict payload) [text "resource_access", settings.clientId, text "roles"]) =
        .ok claims.clientRoles ∧
      claims.scopes = scopesAt (entry (.dict payload) [text "scope"]) := by
  simp only [claimsOf, bind_eq_ok] at made
  obtain ⟨client, ofResource, clientRoles, ofClient, sub, -, realmRoles, ofRealm,
    realmItems, realmListed, clientItems, clientListed, subject, -, email, -, preferred, -,
    name, -, realm, realmRead, clientTexts, clientRead, same⟩ := made
  obtain rfl := Except.ok.inj same
  refine ⟨?_, ?_, ?_⟩
  · have at_ := entry_of_getAttr ofRealm []
    rw [entry, at_, entry, rolesAt, bind_eq_ok]
    exact ⟨realmItems, realmListed, realmRead⟩
  · have outer := entry_of_getAttr ofResource [text "roles"]
    have inner := entry_of_getAttr ofClient []
    rw [entry, outer, inner, entry, rolesAt, bind_eq_ok]
    exact ⟨clientItems, clientListed, clientRead⟩
  · rfl

theorem claimsOf_of_decode {settings : KeycloakSettings} {attempt : Attempt}
    {fetchedAt : Option ℚ} {claims : TokenClaims}
    (accepted : (Keycloak.decode settings attempt fetchedAt).result = .ok claims) :
    ∃ payload, attempt.payload = some payload ∧ claimsOf settings payload = .ok claims := by
  obtain ⟨-, ends⟩ := verified_cases settings attempt fetchedAt
  rw [Keycloak.decode] at accepted
  rcases ends with ⟨payload, found, result⟩ | ⟨-, result⟩
  · refine ⟨payload, found, ?_⟩
    simp only [result] at accepted
    have taken : admitted settings payload = .ok claims := accepted
    by_cases accepts : Accepts settings payload
    · rw [admitted_of_accepts accepts] at taken
      cases made : claimsOf settings payload with
      | error e =>
          rw [made] at taken
          cases taken
      | ok found =>
          rw [made] at taken
          exact congrArg _ (Except.ok.inj taken)
    · rw [admitted_of_not_accepts accepts] at taken
      cases taken
  · simp only [result] at accepted
    cases accepted

/-- Claims read off payloads that agree grant the same. -/
theorem granted_congr {settings : KeycloakSettings} {first second : Payload} {c d : TokenClaims}
    (made : claimsOf settings first = .ok c) (made' : claimsOf settings second = .ok d)
    (same : SameGrants settings first second) (axis : Axis) : granted c axis = granted d axis := by
  obtain ⟨realm, client, scope⟩ := grants_of_claimsOf made
  obtain ⟨realm', client', scope'⟩ := grants_of_claimsOf made'
  have realmRoles : c.realmRoles = d.realmRoles := by
    rw [same _ (by simp [grantPaths]), realm'] at realm
    exact (Except.ok.inj realm).symm
  have clientRoles : c.clientRoles = d.clientRoles := by
    rw [same _ (by simp [grantPaths]), client'] at client
    exact (Except.ok.inj client).symm
  have scopes : c.scopes = d.scopes := by
    rw [scope, scope', same _ (by simp [grantPaths])]
  cases axis with
  | role => rw [granted, granted, TokenClaims.roles, TokenClaims.roles, realmRoles, clientRoles]
  | scope => rw [granted, granted, scopes]

/-! ## What is decided -/

/-- An expression without `Custom` has one value for claims that grant the same. -/
theorem value_congr {e : Expr} (free : e.CustomFree) {c d : TokenClaims}
    (same : ∀ axis, granted c axis = granted d axis) : e.value c = e.value d := by
  rw [Bool.eq_iff_iff]
  constructor
  · exact value_mono free fun axis => (same axis).subset
  · exact value_mono free fun axis => (same axis).superset

/-- Two callers are both let in, or both refused with one exception. -/
def SameDecision (r : Requirement) (c d : TokenClaims) : Prop :=
  (requires r c = .ok c ∧ requires r d = .ok d) ∨
    ∃ exc : HTTPException, requires r c = .error exc ∧ requires r d = .error exc

theorem sameDecision_of_check {r : Requirement} {c d : TokenClaims} (same : r.check c = r.check d) :
    SameDecision r c d := by
  cases passes : r.check d with
  | true =>
      rw [passes] at same
      exact .inl ⟨if_pos same, if_pos passes⟩
  | false =>
      rw [passes] at same
      refine .inr ⟨_, if_neg ?_, if_neg ?_⟩
      · rw [same]
        exact Bool.false_ne_true
      · rw [passes]
        exact Bool.false_ne_true

/-- **Foreign grants do not leak into decisions.** Of two tokens whose payloads were verified
and accepted, and agree on the roles of the realm, on the roles of this service's client and
on the scope, every requirement without `Custom` decides alike. -/
theorem foreign_grants_do_not_leak (settings : KeycloakSettings) (first second : Attempt)
    (fetchedAt fetchedAt' : Option ℚ) (p q : Payload) (c d : TokenClaims)
    (verified : first.payload = some p) (verified' : second.payload = some q)
    (accepted : (Keycloak.decode settings first fetchedAt).result = .ok c)
    (accepted' : (Keycloak.decode settings second fetchedAt').result = .ok d)
    (same : SameGrants settings p q) (e : Expr) (r : Requirement) (built : e.build = some r)
    (free : e.CustomFree) : SameDecision r c d := by
  obtain ⟨payload, found, made⟩ := claimsOf_of_decode accepted
  obtain ⟨payload', found', made'⟩ := claimsOf_of_decode accepted'
  obtain rfl := Option.some.inj (verified.symm.trans found)
  obtain rfl := Option.some.inj (verified'.symm.trans found')
  have granted_eq := granted_congr made made' same
  refine sameDecision_of_check ?_
  rw [check_of_build built, check_of_build built]
  exact value_congr free granted_eq

/-- A token with a role here, and one that has another role elsewhere besides. -/
def billingClaims (elsewhere : List (Text × Value)) : Payload :=
  [(text "sub", .str (text "u-1")),
   (text "resource_access", .dict
     ((text "app-api", .dict [(text "roles", .list [.str (text "agent")])]) :: elsewhere))]

def otherApi : List (Text × Value) :=
  [(text "some-other-api", .dict [(text "roles", .list [.str (text "support")])])]

def appApi : KeycloakSettings := { clientId := text "app-api" }

theorem other_client_does_not_grant :
    ∃ r c d, supportOrAgent.build = some r ∧
      (Keycloak.decode appApi (signed (billingClaims [])) none).result = .ok c ∧
      (Keycloak.decode appApi (signed (billingClaims otherApi)) none).result = .ok d ∧
      SameDecision r c d := by
  have free : supportOrAgent.CustomFree :=
    ⟨fun _ _ => trivial, fun _ _ => trivial, fun _ _ => trivial⟩
  have same : SameGrants appApi (billingClaims []) (billingClaims otherApi) := by
    intro path member
    simp only [grantPaths, List.mem_cons, List.not_mem_nil, or_false] at member
    rcases member with rfl | rfl | rfl
    · rfl
    · rfl
    · rfl
  exact ⟨_, _, _, rfl, rfl, rfl, foreign_grants_do_not_leak appApi
    (signed (billingClaims [])) (signed (billingClaims otherApi)) none none _ _ _ _ rfl rfl rfl rfl
    same supportOrAgent _ rfl free⟩

end PyCommon.Requirements
