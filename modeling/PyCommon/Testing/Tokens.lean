import PyCommon.Lib.Dictionaries
import PyCommon.Security.Keycloak

/-!
# Test tokens

`issue_test_token` makes a token of the shape that Keycloak's have, so that a test can go
through the validator. The scopes are joined with blanks, and the validator splits them again.

A test token is read as it was issued: its subject, its realm roles, the roles of the service's
own client, and the words of its scopes. The scopes themselves come back exactly if each of them
is one word (`test_token_read`).
-/

set_option autoImplicit false

namespace PyCommon.TestTokens

open CodePoints (Text text)
open Dictionaries (assign lookup_assign)
open Json (Value)
open Keycloak
open Outcome (bind_eq_ok)

/-! ## Issuing -/

/-- `" ".join(words)`. -/
def joinWords (words : List Text) : Text := (text " ").intercalate words

/-- `{"roles": roles}`. -/
def rolesValue (roles : List Text) : Value := .dict [(text "roles", .list (roles.map .str))]

/-- The arguments of `issue_test_token` that make up the payload. -/
structure TestToken where
  issuer : Text
  audience : Text
  sub : Text := text "test-user"
  realmRoles : List Text := []
  clientRoles : List (Text × List Text) := []
  scopes : List Text := []
  expiresInSeconds : ℤ := 300
  extraClaims : Payload := []

/-- The payload of a token that is issued at `now`. -/
def TestToken.payload (token : TestToken) (now : ℤ) : Payload :=
  let claims : Payload :=
    [(text "sub", .str token.sub),
      (text "iss", .str token.issuer),
      (text "aud", .str token.audience),
      (text "iat", .int now),
      (text "exp", .int (now + token.expiresInSeconds)),
      (text "realm_access", rolesValue token.realmRoles),
      (text "resource_access",
        .dict (token.clientRoles.map fun client => (client.1, rolesValue client.2)))]
  let claims := if token.scopes = [] then claims
    else assign (text "scope") (.str (joinWords token.scopes)) claims
  token.extraClaims.foldl (fun claims claim => assign claim.1 claim.2 claims) claims

/-! ## Joining and splitting -/

/-- A text that is one word. -/
def IsWord (content : Text) : Prop := content ≠ [] ∧ ∀ c ∈ content, isSpace c = false

theorem words_append (word front rest : Text) :
    words word (front ++ 0x20 :: rest) = words word front ++ split rest := by
  induction front generalizing word with
  | nil =>
      have blank : isSpace 0x20 = true := rfl
      cases word <;> simp [words, split, blank]
  | cons c front ih =>
      simp only [List.cons_append, words]
      split
      · split
        · exact ih []
        · rw [ih [], List.cons_append]
      · exact ih (word ++ [c])

/-- **Splitting what was joined** gives the words of each part. -/
theorem split_joinWords (parts : List Text) : split (joinWords parts) = parts.flatMap split := by
  induction parts with
  | nil => rfl
  | cons part parts ih =>
      cases parts with
      | nil => simp [joinWords]
      | cons next parts =>
          have joined : joinWords (part :: next :: parts) =
              part ++ 0x20 :: joinWords (next :: parts) := by
            simp [joinWords, text]
          rw [joined, split, words_append, ih]
          rfl

theorem words_of_solid {word content : Text} (solid : ∀ c ∈ content, isSpace c = false) :
    words word content = if (word ++ content).isEmpty then [] else [word ++ content] := by
  induction content generalizing word with
  | nil => simp [words]
  | cons c content ih =>
      have first := solid c List.mem_cons_self
      rw [words, first, if_neg (by simp),
        ih fun d member => solid d (List.mem_cons_of_mem c member)]
      simp

theorem isWord_of_mem_words {word content found : Text}
    (solid : ∀ c ∈ word, isSpace c = false) (member : found ∈ words word content) :
    IsWord found := by
  induction content generalizing word with
  | nil =>
      simp only [words] at member
      split at member
      · cases member
      · rename_i apart
        obtain rfl := List.mem_singleton.mp member
        exact ⟨by simpa using apart, solid⟩
  | cons c content ih =>
      simp only [words] at member
      split at member
      · split at member
        · exact ih (List.forall_mem_nil _) member
        · rename_i apart
          rcases List.mem_cons.mp member with rfl | later
          · exact ⟨by simpa using apart, solid⟩
          · exact ih (List.forall_mem_nil _) later
      · rename_i other
        refine ih ?_ member
        intro d there
        rcases List.mem_append.mp there with earlier | last
        · exact solid d earlier
        · rw [List.mem_singleton.mp last]
          exact Bool.eq_false_iff.mpr other

/-- The parts come back exactly if each of them is a word. -/
theorem flatMap_split_iff {parts : List Text} :
    parts.flatMap split = parts ↔ ∀ part ∈ parts, IsWord part := by
  constructor
  · intro same part member
    rw [← same] at member
    obtain ⟨whole, -, found⟩ := List.mem_flatMap.mp member
    exact isWord_of_mem_words (List.forall_mem_nil _) found
  · intro each
    induction parts with
    | nil => rfl
    | cons part parts ih =>
        have first := each part List.mem_cons_self
        rw [List.flatMap_cons, ih fun later there => each later (List.mem_cons_of_mem part there),
          split, words_of_solid first.2, List.nil_append, if_neg (by simpa using first.1)]
        rfl

/-! ## Reading -/

/-- The claims that are taken apart. -/
def readNames : List Text :=
  [text "sub", text "email", text "preferred_username", text "name", text "realm_access",
    text "resource_access", text "scope"]

variable {token : TestToken} {now : ℤ} {settings : KeycloakSettings}

theorem lookup_extra {name : Text} {claims extra : Payload}
    (apart : ∀ claim ∈ extra, claim.1 ≠ name) :
    (extra.foldl (fun claims claim => assign claim.1 claim.2 claims) claims).lookup name =
      claims.lookup name := by
  induction extra generalizing claims with
  | nil => rfl
  | cons claim extra ih =>
      rw [List.foldl_cons, ih fun later member => apart later (List.mem_cons_of_mem claim member),
        lookup_assign, if_neg (apart claim List.mem_cons_self).symm]

/-- What a token without extra claims holds under the names that are read. -/
theorem lookup_payload {name : Text} (plain : ∀ claim ∈ token.extraClaims, claim.1 ∉ readNames)
    (read : name ∈ readNames) :
    (token.payload now).lookup name =
      ([(text "sub", some (Value.str token.sub)),
        (text "realm_access", some (rolesValue token.realmRoles)),
        (text "resource_access", some (.dict (token.clientRoles.map fun client =>
          (client.1, rolesValue client.2)))),
        (text "scope", if token.scopes = [] then none
          else some (.str (joinWords token.scopes)))].lookup name).join := by
  have apart : ∀ claim ∈ token.extraClaims, claim.1 ≠ name := fun claim member same =>
    plain claim member (same ▸ read)
  rw [TestToken.payload, lookup_extra apart]
  simp only [readNames, List.mem_cons, List.not_mem_nil, or_false] at read
  split
  · rcases read with rfl | rfl | rfl | rfl | rfl | rfl | rfl <;> rfl
  · rw [lookup_assign]
    rcases read with rfl | rfl | rfl | rfl | rfl | rfl | rfl <;> rfl

theorem listOf_strings (roles : List Text) :
    listOf (orElse (.list (roles.map .str)) (.list [])) = .ok (roles.map .str) := by
  cases roles with
  | nil => rfl
  | cons role roles => rfl

theorem mapM_strField (contents : List Text) :
    (contents.map Value.str).mapM strField = .ok contents := by
  induction contents with
  | nil => rfl
  | cons content contents ih =>
      rw [List.map_cons, List.mapM_cons, ih]
      rfl

/-- The roles of a client, in the claim that `issue_test_token` writes. -/
theorem roles_of_client (clients : List (Text × List Text)) (client : Text) :
    ∃ holder, getAttr (orElse (.dict (clients.map fun client =>
        (client.1, rolesValue client.2))) (.dict [])) client = .ok holder ∧
      ∃ roles, getAttr (orElse holder (.dict [])) (text "roles") = .ok roles ∧
        listOf (orElse roles (.list [])) = .ok (((clients.lookup client).getD []).map .str) := by
  have whole : orElse (.dict (clients.map fun client => (client.1, rolesValue client.2)))
      (.dict []) = .dict (clients.map fun client => (client.1, rolesValue client.2)) := by
    cases clients <;> rfl
  have found : (clients.map fun client => (client.1, rolesValue client.2)).lookup client =
      (clients.lookup client).map rolesValue := by
    clear whole
    induction clients with
    | nil => rfl
    | cons entry clients ih =>
        rw [List.map_cons, List.lookup_cons, List.lookup_cons, ih]
        cases client == entry.1 <;> rfl
  refine ⟨_, by rw [whole]; rfl, ?_⟩
  rw [Keycloak.get, found]
  cases clients.lookup client with
  | none => exact ⟨.null, rfl, rfl⟩
  | some roles => exact ⟨_, rfl, listOf_strings roles⟩

/-- The claims of a test token. -/
def TestToken.claims (token : TestToken) (now : ℤ) (settings : KeycloakSettings) : TokenClaims where
  sub := token.sub
  realmRoles := token.realmRoles
  clientRoles := (token.clientRoles.lookup settings.clientId).getD []
  scopes := token.scopes.flatMap split
  raw := token.payload now

theorem claimsOf_payload (plain : ∀ claim ∈ token.extraClaims, claim.1 ∉ readNames) :
    claimsOf settings (token.payload now) = .ok (token.claims now settings) := by
  have item {name : Text} (read : name ∈ readNames) := @lookup_payload token now name plain read
  obtain ⟨holder, ofResource, roles, ofClient, listed⟩ :=
    roles_of_client token.clientRoles settings.clientId
  have resource : Keycloak.get (token.payload now) (text "resource_access") =
      .dict (token.clientRoles.map fun client => (client.1, rolesValue client.2)) := by
    rw [Keycloak.get, item (by decide)]
    rfl
  have realm : Keycloak.get (token.payload now) (text "realm_access") =
      rolesValue token.realmRoles := by
    rw [Keycloak.get, item (by decide)]
    rfl
  have subject : getItem (token.payload now) (text "sub") = .ok (.str token.sub) := by
    rw [getItem, item (by decide)]
    rfl
  have absent {name : Text} (read : name ∈ [text "email", text "preferred_username", text "name"]) :
      optionalField (Keycloak.get (token.payload now) name) = .ok none := by
    have inside : name ∈ readNames := by
      revert read
      simp only [readNames, List.mem_cons, List.not_mem_nil, or_false]
      tauto
    rw [Keycloak.get, item inside]
    simp only [List.mem_cons, List.not_mem_nil, or_false] at read
    rcases read with rfl | rfl | rfl <;> rfl
  have scope : Keycloak.get (token.payload now) (text "scope") =
      if token.scopes = [] then .null else .str (joinWords token.scopes) := by
    rw [Keycloak.get, item (by decide)]
    cases token.scopes <;> rfl
  simp only [claimsOf, bind_eq_ok]
  refine ⟨holder, by rw [resource]; exact ofResource, roles, ofClient, _, subject,
    .list (token.realmRoles.map .str), by rw [realm]; rfl, _, listOf_strings _, _, listed, _, rfl,
    _, absent (by simp), _, absent (by simp), _, absent (by simp), _, mapM_strField _, _,
    mapM_strField _, ?_⟩
  rw [TestToken.claims, ← split_joinWords, scope]
  cases token.scopes <;> rfl

/-- **A test token is read as it was issued**, whichever attempt verifies it. -/
theorem test_token_read {attempt : Attempt} {fetchedAt : Option ℚ}
    (verified : attempt.payload = some (token.payload now))
    (plain : ∀ claim ∈ token.extraClaims, claim.1 ∉ readNames)
    (allowed : settings.allowedAzp = [] ∨ azpAllowed settings (token.payload now) = true) :
    ∃ claims, (Keycloak.decode settings attempt fetchedAt).result = .ok claims ∧
      claims.sub = token.sub ∧ claims.realmRoles = token.realmRoles ∧
      claims.clientRoles = (token.clientRoles.lookup settings.clientId).getD [] ∧
      claims.scopes = token.scopes.flatMap split ∧
      (claims.scopes = token.scopes ↔ ∀ scope ∈ token.scopes, IsWord scope) := by
  refine ⟨token.claims now settings, ?_, rfl, rfl, rfl, rfl, flatMap_split_iff⟩
  have accepts : ¬ (settings.allowedAzp ≠ [] ∧ !azpAllowed settings (token.payload now)) := by
    rintro ⟨listed, refused⟩
    rcases allowed with none_ | there
    · exact listed none_
    · rw [there] at refused
      cases refused
  have admits : admitted settings (token.payload now) = .ok (token.claims now settings) := by
    rw [admitted, if_neg accepts, claimsOf_payload plain]
    rfl
  obtain ⟨payload, found, result⟩ | ⟨missing, -⟩ :=
    (verified_cases settings attempt fetchedAt).2
  · obtain rfl := Option.some.inj (verified.symm.trans found)
    change (Keycloak.verified settings attempt fetchedAt).result.bind (admitted settings) = _
    rw [result]
    exact admits
  · rw [verified] at missing
    cases missing

/-- A token whose key is known only once the keys are fetched again. -/
def rotated (payload : Payload) : Attempt where
  now := fun _ => 0
  verify := fun forceRefresh => if forceRefresh then .ok payload else .error .jwkClientError

/-- A token for a service that accepts one client, with a scope that is two words. Its key
was rotated since the keys were fetched. -/
theorem read_scopes_token :
    ∃ claims, (Keycloak.decode
        { clientId := text "app-api", allowedAzp := [text "web"] }
        (rotated (TestToken.payload
          { issuer := text "https://id", audience := text "app-api"
            clientRoles := [(text "app-api", [text "editor"])]
            scopes := [text "read", text "write all"]
            extraClaims := [(text "azp", .str (text "web"))] } 0)) none).result = .ok claims ∧
      claims.clientRoles = [text "editor"] ∧
      claims.scopes = [text "read", text "write", text "all"] := by
  obtain ⟨claims, decoded, -, -, roles, scopes, -⟩ := @test_token_read
    { issuer := text "https://id", audience := text "app-api"
      clientRoles := [(text "app-api", [text "editor"])]
      scopes := [text "read", text "write all"]
      extraClaims := [(text "azp", .str (text "web"))] }
    0 { clientId := text "app-api", allowedAzp := [text "web"] } (rotated _) none rfl (by decide)
    (.inr (by decide))
  exact ⟨claims, decoded, roles, scopes⟩

end PyCommon.TestTokens
