import PyCommon.Http.ErrorHandlers
import PyCommon.Lib.Phrases
import PyCommon.Security.Requirements

/-!
# Descriptions of requirements

What a requirement says of itself, which a 403 quotes. A composition joins its parts with
` OR ` or ` AND `, and puts parentheses around a part whose text has either in it. It goes
by the text and not by the type, since a primitive with several values joins them too.

Read as a phrase in which `OR` is or and `AND` is and (`language`), a description states
the rule that is checked, so requirements that describe themselves alike decide alike
(`describe_states_rule`). The roles and scopes that a 403 names are all that matters to the
decision, and having all of them is enough to be let in (`forbidden_names_grants`). This is for
`HasRole` and `HasScope` with values that are free of blanks and parentheses.
-/

set_option autoImplicit false

namespace PyCommon.Requirements

open CodePoints (Text code text)
open Keycloak (TokenClaims)
open Phrases (Language Operand Whole Word IsLetter separator)

def Axis.label : Axis → Text
  | .role => text "role:"
  | .scope => text "scope:"

def Kind.operator : Kind → Text
  | .anyOf => text " OR "
  | .allOf => text " AND "

/-- A text that reads as a combination. -/
def Combined (t : Text) : Prop := text " OR " <:+: t ∨ text " AND " <:+: t

instance (t : Text) : Decidable (Combined t) :=
  inferInstanceAs (Decidable (text " OR " <:+: t ∨ text " AND " <:+: t))

/-- `_wrap`, given the text of the part. -/
def wrap (t : Text) : Text := if Combined t then code '(' :: t ++ [code ')'] else t

mutual
/-- `describe`. -/
def Requirement.describe : Requirement → Text
  | .has axis first rest => (text " OR ").intercalate ((first :: rest).map (axis.label ++ ·))
  | .custom _ description => description
  | .compound kind first rest => kind.operator.intercalate (wrap first.describe :: wraps rest)

def wraps : List Requirement → List Text
  | [] => []
  | part :: rest => wrap part.describe :: wraps rest
end

example : supportOrAgent.build.map Requirement.describe =
    some (text "role:support OR (role:agent AND scope:tickets:close)") := by
  decide +kernel

open ErrorHandlers (HTTPException) in
/-- The dependency that `Auth.requires` makes. -/
def requires (requirement : Requirement) (user : TokenClaims) : Except HTTPException TokenClaims :=
  if requirement.check user then .ok user
  else .error
    { statusCode := 403
      detail := .str (text "Insufficient permissions; requires: " ++ requirement.describe) }

theorem describe_has (axis : Axis) (first : Text) (rest : List Text) :
    (Requirement.has axis first rest).describe =
      Kind.anyOf.operator.intercalate ((first :: rest).map (axis.label ++ ·)) := by
  rw [Requirement.describe]
  rfl

theorem wraps_eq_map (parts : List Requirement) :
    wraps parts = parts.map fun part => wrap part.describe := by
  induction parts with
  | nil => rfl
  | cons part rest ih => rw [wraps, ih, List.map_cons]

theorem describe_compound (kind : Kind) (first : Requirement) (rest : List Requirement) :
    (Requirement.compound kind first rest).describe =
      kind.operator.intercalate ((first :: rest).map fun part => wrap part.describe) := by
  rw [Requirement.describe, wraps_eq_map, List.map_cons]

/-! ## Plain requirements -/

/-- A value that is free of blanks and parentheses. -/
def Clean (value : Text) : Prop := ∀ c ∈ value, IsLetter c

instance (value : Text) : Decidable (Clean value) :=
  inferInstanceAs (Decidable (∀ c ∈ value, IsLetter c))

/-- A requirement of `HasRole` and `HasScope` alone, with clean values. -/
inductive Plain : Requirement → Prop where
  | has (axis : Axis) (first : Text) (rest : List Text)
      (clean : ∀ value ∈ first :: rest, Clean value) : Plain (.has axis first rest)
  | compound (kind : Kind) (first : Requirement) (rest : List Requirement)
      (parts : ∀ part ∈ first :: rest, Plain part) : Plain (.compound kind first rest)

theorem plain_of_init {kind : Kind} {parts : List Requirement} {r : Requirement}
    (made : init (.compound kind) parts = some r) (plain : ∀ part ∈ parts, Plain part) :
    Plain r := by
  cases parts with
  | nil => cases made
  | cons first rest =>
      obtain rfl := Option.some.inj made
      exact .compound kind first rest plain

theorem plain_spliced {kind : Kind} {part : Requirement} (plain : Plain part) :
    ∀ inner ∈ spliced kind part, Plain inner := by
  cases plain with
  | has axis first rest clean => exact List.forall_mem_singleton.mpr (.has axis first rest clean)
  | compound other first rest parts =>
      rw [spliced]
      split
      · exact parts
      · exact List.forall_mem_singleton.mpr (.compound other first rest parts)

theorem plain_flatten {kind : Kind} {parts : List Requirement}
    (plain : ∀ part ∈ parts, Plain part) : ∀ inner ∈ flatten kind parts, Plain inner := by
  intro inner member
  obtain ⟨part, listed, member⟩ := List.mem_flatMap.mp member
  exact plain_spliced (plain part listed) inner member

/-- Splicing and all, an expression with clean values builds a plain requirement. -/
theorem plain_of_build {e : Expr} {r : Requirement} (built : e.build = some r)
    (clean : e.Every Clean) : Plain r := by
  induction e using Expr.induct generalizing r with
  | has axis values =>
      rw [build_has] at built
      cases values with
      | nil => cases built
      | cons first rest =>
          obtain rfl := Option.some.inj built
          exact .has axis first rest clean
  | custom predicate description => exact clean.elim
  | binary kind left right ofLeft ofRight =>
      obtain ⟨leftClean, rightClean⟩ := clean
      obtain ⟨first, here, second, there, made⟩ := build_binary_eq_some.mp built
      refine plain_of_init made (plain_flatten ?_)
      intro part member
      rcases List.mem_pair.mp member with rfl | rfl
      · exact ofLeft here leftClean
      · exact ofRight there rightClean
  | call kind parts ih =>
      obtain ⟨objects, made, given⟩ := build_call_eq_some.mp built
      have fits := everyPart_iff.mp clean
      have each : List.Forall₂ (fun _ object => Plain object) parts objects :=
        forall₂_of_builds made fun part member object here => ih part member here (fits part member)
      refine plain_of_init given ?_
      clear made given built ih clean fits
      induction each with
      | nil => exact List.forall_mem_nil _
      | cons here _ later => exact List.forall_mem_cons.mpr ⟨here, later⟩

/-! ## Reading a description -/

/-- The rule that a word with the label of an axis states. -/
def primitive (axis : Axis) (word : Text) : Option (TokenClaims → Bool) :=
  if axis.label <+: word then
    some fun claims => holds claims axis (word.drop axis.label.length)
  else none

/-- Descriptions read with `OR` as or and `AND` as and. -/
def language : Language Kind (TokenClaims → Bool) where
  connective word :=
    if word = text "OR" then some .anyOf else if word = text "AND" then some .allOf else none
  word word := (primitive .role word).or (primitive .scope word)
  combine kind rules := fun claims => kind.apply (rules.map (· claims))
  alone := .anyOf

/-- The text reads as the rule, and does so as an operand if it needs no parentheses. -/
def Describes (phrase : Text) (rule : TokenClaims → Bool) : Prop :=
  Whole language phrase rule ∧ (¬ Combined phrase → Operand language phrase rule)

theorem operand_wrap {phrase : Text} {rule : TokenClaims → Bool}
    (describes : Describes phrase rule) : Operand language (wrap phrase) rule := by
  obtain ⟨whole, operand⟩ := describes
  unfold wrap
  split
  · exact Phrases.operand_group whole
  · rename_i single
    exact operand single

theorem combine_singleton (kind : Kind) (rule : TokenClaims → Bool) :
    language.combine kind [rule] = rule := by
  funext claims
  exact apply_singleton kind (rule claims)

theorem operator_eq (kind : Kind) : ∃ word : Text, kind.operator = separator word ∧
    (∀ c ∈ word, IsLetter c) ∧ word ≠ [] ∧ language.connective word = some kind := by
  cases kind with
  | anyOf => exact ⟨text "OR", rfl, by decide, by decide, rfl⟩
  | allOf => exact ⟨text "AND", rfl, by decide, by decide, rfl⟩

theorem combined_of_operator {kind : Kind} {phrase : Text} (occurs : kind.operator <:+: phrase) :
    Combined phrase := by
  cases kind with
  | anyOf => exact .inl occurs
  | allOf => exact .inr occurs

/-- **Joined parts.** No level has both operators, since what is joined are operands. -/
theorem describes_joined {kind : Kind} {phrases : List Text} {rules : List (TokenClaims → Bool)}
    (each : List.Forall₂ (Operand language) phrases rules) (given : phrases ≠ []) :
    Describes (kind.operator.intercalate phrases) (language.combine kind rules) := by
  obtain ⟨word, operator, letters, filled, joins⟩ := operator_eq kind
  constructor
  · rw [operator]
    refine Phrases.whole_joined each given letters filled joins fun rule => ?_
    rw [combine_singleton, combine_singleton]
  · intro single
    cases each with
    | nil => exact absurd rfl given
    | @cons phrase rule phrases rules operand others =>
        cases others with
        | nil => simpa [combine_singleton] using operand
        | @cons next _ phrases _ _ _ =>
            have occurs :
                kind.operator <:+: kind.operator.intercalate (phrase :: next :: phrases) := by
              rw [operator, Phrases.intercalate_separator, List.flatMap_cons, List.append_assoc]
              exact ⟨phrase, _, List.append_assoc _ _ _⟩
            exact absurd (combined_of_operator occurs) single

/-- A value with its label is a word. -/
theorem letters_labelled {axis : Axis} {value : Text} (clean : Clean value) :
    ∀ c ∈ axis.label ++ value, IsLetter c := by
  have letters : ∀ c ∈ axis.label, IsLetter c := by
    cases axis with
    | role => decide
    | scope => decide
  exact List.forall_mem_append.mpr ⟨letters, clean⟩

theorem operand_value {axis : Axis} {value : Text} (clean : Clean value) :
    Operand language (axis.label ++ value) fun claims => holds claims axis value := by
  refine Phrases.operand_word (letters_labelled clean) ?_ ?_ ?_
  · cases axis with
    | role => exact List.cons_ne_nil _ _
    | scope => exact List.cons_ne_nil _ _
  · cases axis with
    | role => simp [language, Axis.label, text]
    | scope => simp [language, Axis.label, text]
  · cases axis with
    | role => simp [language, primitive]
    | scope => simp [language, primitive, Axis.label, text]

theorem forall₂_map_map {α β γ : Type} {related : β → γ → Prop} {f : α → β} {g : α → γ}
    {xs : List α} (each : ∀ x ∈ xs, related (f x) (g x)) :
    List.Forall₂ related (xs.map f) (xs.map g) := by
  rw [List.forall₂_map_left_iff, List.forall₂_map_right_iff, List.forall₂_same]
  exact each

/-- **A plain requirement describes what it checks.** -/
theorem describes_check {r : Requirement} (plain : Plain r) :
    Describes r.describe fun claims => r.check claims := by
  induction plain with
  | has axis first rest clean =>
      have rule : (fun claims => (Requirement.has axis first rest).check claims) =
          language.combine .anyOf ((first :: rest).map fun value claims =>
            holds claims axis value) := by
        funext claims
        simp [check_has, language, Kind.apply, Function.comp_def]
      rw [rule, describe_has]
      exact describes_joined
        (forall₂_map_map fun value member => operand_value (clean value member))
        (List.cons_ne_nil _ _)
  | compound kind first rest _ ih =>
      have rule : (fun claims => (Requirement.compound kind first rest).check claims) =
          language.combine kind ((first :: rest).map fun part claims => part.check claims) := by
        funext claims
        simp [check_compound, language, Function.comp_def]
      rw [rule, describe_compound]
      exact describes_joined (forall₂_map_map fun part member => operand_wrap (ih part member))
        (List.cons_ne_nil _ _)

theorem read_describe {r : Requirement} (plain : Plain r) :
    Phrases.read language r.describe = some fun claims => r.check claims :=
  Phrases.read_eq_some (describes_check plain).1

/-- No operator binds closer. -/
example : (Phrases.read language (text "role:a OR role:b AND scope:s")).isNone := by
  decide +kernel

/-- **A description states the rule that is enforced.** Read back, the description of a
requirement of `HasRole` and `HasScope` gives what the requirement checks; and another that
describes itself alike decides alike, for all claims. -/
theorem describe_states_rule (e : Expr) (r : Requirement) (built : e.build = some r)
    (clean : e.Every Clean) :
    (Phrases.read language r.describe = some fun claims => r.check claims) ∧
      ∀ (e' : Expr) (r' : Requirement), e'.build = some r' → e'.Every Clean →
        r'.describe = r.describe → ∀ claims, r'.check claims = r.check claims := by
  have plain : Plain r := plain_of_build built clean
  refine ⟨read_describe plain, ?_⟩
  intro e' r' built' clean' same claims
  have plain' : Plain r' := plain_of_build built' clean'
  have rules : (fun claims => r'.check claims) = fun claims => r.check claims := by
    have read := read_describe plain'
    rw [same, read_describe plain] at read
    exact (Option.some.inj read).symm
  exact congrFun rules claims

/-- `HasRole("a", "b") & HasScope("s")` -/
def eitherRole : Expr :=
  .binary .allOf (.has .role [text "a", text "b"]) (.has .scope [text "s"])

/-- `AllOf(HasRole("a") | HasRole("b"), HasScope("s"))` -/
def eitherOfRoles : Expr :=
  .call .allOf [.binary .anyOf (.has .role [text "a"]) (.has .role [text "b"]),
    .has .scope [text "s"]]

/-- Two objects of different shapes that both describe themselves as
`(role:a OR role:b) AND scope:s`. -/
theorem eitherRole_states_rule : ∃ r r', eitherRole.build = some r ∧
    eitherOfRoles.build = some r' ∧
    (Phrases.read language r.describe = some fun claims => r.check claims) ∧
      ∀ claims, r'.check claims = r.check claims := by
  have clean : eitherRole.Every Clean := by
    simp only [eitherRole, Expr.Every]
    decide
  have clean' : eitherOfRoles.Every Clean := by
    simp only [eitherOfRoles, Expr.Every, everyPart]
    decide
  obtain ⟨reads, alike⟩ := describe_states_rule eitherRole _ rfl clean
  refine ⟨_, _, rfl, rfl, reads, alike eitherOfRoles _ rfl clean' ?_⟩
  decide +kernel

/-! ## What a 403 names -/

/-- The text names a value: it stands in it as a word, with its label. -/
def Names (phrase : Text) (axis : Axis) (value : Text) : Prop := Word phrase (axis.label ++ value)

/-- A part that is wrapped names what it names alone. -/
theorem Names.wrap {phrase : Text} {axis : Axis} {value : Text} (names : Names phrase axis value) :
    Names (wrap phrase) axis value := by
  unfold Requirements.wrap
  split
  · exact names.group
  · exact names

/-- What a part names is named by the whole. -/
theorem Names.joined {kind : Kind} {phrases : List Text} {phrase : Text} {axis : Axis}
    {value : Text} (member : phrase ∈ phrases) (names : Names phrase axis value) :
    Names (kind.operator.intercalate phrases) axis value := by
  obtain ⟨word, operator, -⟩ := operator_eq kind
  rw [operator]
  exact Word.joined member names

/-- Parts that all decide favourably. -/
theorem apply_eq_true {kind : Kind} {decisions : List Bool} (given : decisions ≠ [])
    (every : ∀ b ∈ decisions, b = true) : kind.apply decisions = true := by
  cases kind with
  | anyOf =>
      obtain ⟨b, member⟩ := List.exists_mem_of_ne_nil decisions given
      exact List.any_eq_true.mpr ⟨b, member, every b member⟩
  | allOf => exact List.all_eq_true.mpr every

/-- **Only what is named matters**, and all that is named is enough. -/
theorem check_of_names {r : Requirement} (plain : Plain r) :
    (∀ c d : TokenClaims, (∀ axis value, Names r.describe axis value →
        holds c axis value = holds d axis value) → r.check c = r.check d) ∧
      ∀ d : TokenClaims, (∀ axis value, Names r.describe axis value → holds d axis value = true) →
        r.check d = true := by
  induction plain with
  | has axis first rest clean =>
      have named : ∀ value ∈ first :: rest,
          Names (Requirement.has axis first rest).describe axis value := by
        intro value member
        rw [describe_has]
        exact Names.joined (List.mem_map_of_mem member)
          (Word.self (letters_labelled (clean value member)))
      refine ⟨fun c d same => ?_, fun d held => ?_⟩
      · rw [check_has, check_has]
        refine Bool.eq_iff_iff.mpr ?_
        simp only [List.any_eq_true]
        refine exists_congr fun value => and_congr_right fun member => ?_
        rw [same axis value (named value member)]
      · rw [check_has]
        exact List.any_eq_true.mpr ⟨first, List.mem_cons_self,
          held axis first (named first List.mem_cons_self)⟩
  | compound kind first rest _ ih =>
      have named : ∀ part ∈ first :: rest, ∀ axis value, Names part.describe axis value →
          Names (Requirement.compound kind first rest).describe axis value := by
        intro part member axis value names
        rw [describe_compound]
        exact Names.joined (List.mem_map_of_mem member) names.wrap
      refine ⟨fun c d same => ?_, fun d held => ?_⟩
      · rw [check_compound, check_compound]
        refine congrArg kind.apply (List.map_congr_left fun part member => ?_)
        exact (ih part member).1 c d fun axis value names =>
          same axis value (named part member axis value names)
      · rw [check_compound]
        refine apply_eq_true (by simp) fun b member => ?_
        obtain ⟨part, listed, rfl⟩ := List.mem_map.mp member
        exact (ih part listed).2 d fun axis value names =>
          held axis value (named part listed axis value names)

/-- **A 403 names the grants that matter.** A caller who has the same of the roles and scopes
that it names as the one who was refused is refused alike, and a caller who has all of them is
let in. -/
theorem forbidden_names_grants {e : Expr} {r : Requirement} (built : e.build = some r)
    (clean : e.Every Clean) {user : TokenClaims} {exc : ErrorHandlers.HTTPException}
    (refused : requires r user = .error exc) :
    ∃ phrase, exc.detail = .str (text "Insufficient permissions; requires: " ++ phrase) ∧
      (∀ other : TokenClaims, (∀ axis value, Names phrase axis value →
          holds other axis value = holds user axis value) → requires r other = .error exc) ∧
        ∀ other : TokenClaims, (∀ axis value, Names phrase axis value →
          holds other axis value = true) → requires r other = .ok other := by
  obtain ⟨alike, enough⟩ := check_of_names (plain_of_build built clean)
  unfold requires at refused
  split at refused
  · cases refused
  · rename_i fails
    obtain rfl := Except.error.inj refused
    refine ⟨r.describe, rfl, fun other same => ?_, fun other held => if_pos (enough other held)⟩
    rw [← alike other user same] at fails
    exact if_neg fails

/-- A user with the role and without the scope is refused, whatever other role there is. -/
theorem eitherRole_forbidden : ∃ r exc, eitherRole.build = some r ∧
    requires r { sub := text "u", realmRoles := [text "b"] } = .error exc ∧
    ∃ phrase, exc.detail = .str (text "Insufficient permissions; requires: " ++ phrase) ∧
      (∀ other : TokenClaims, (∀ axis value, Names phrase axis value →
          holds other axis value = holds { sub := text "u", realmRoles := [text "b"] } axis value) →
        requires r other = .error exc) ∧
        ∀ other : TokenClaims, (∀ axis value, Names phrase axis value →
          holds other axis value = true) → requires r other = .ok other := by
  have clean : eitherRole.Every Clean := by
    simp only [eitherRole, Expr.Every]
    decide
  exact ⟨_, _, rfl, rfl, forbidden_names_grants (rfl : eitherRole.build = _) clean rfl⟩

end PyCommon.Requirements
