import Mathlib.Data.List.Forall2
import PyCommon.Security.Keycloak

/-!
# Authorization requirements

The algebra of `requirements.py`: `HasRole` and `HasScope`, which ask for any one of
their values, `Custom`, and the compositions `AnyOf` and `AllOf`. The operators `|` and
`&` build the compositions too, and splice in operands that are already of the kind they
build; the classes called as functions do not.

An expression (`Expr`) is what stands in the code of a service, and a `Requirement` is
the object it evaluates to. The object decides as the expression reads, whatever was
spliced, and rearranging an expression changes no decision (`checks_expression`). Without
`Custom` a caller who is granted more is never refused for it (`check_mono`).
-/

set_option autoImplicit false

namespace PyCommon.Requirements

open CodePoints (Text text)
open Keycloak (TokenClaims)

/-! ## Requirements -/

/-- What a primitive asks about. -/
inductive Axis where
  | role
  | scope
  deriving DecidableEq

/-- The classes `AnyOf` and `AllOf`. -/
inductive Kind where
  | anyOf
  | allOf
  deriving DecidableEq

/-- `any` and `all`. -/
def Kind.apply : Kind → List Bool → Bool
  | .anyOf, decisions => decisions.any id
  | .allOf, decisions => decisions.all id

/-- `claims.roles` and `set(claims.scopes)`. -/
def granted (claims : TokenClaims) : Axis → Finset Text
  | .role => claims.roles
  | .scope => claims.scopes.toFinset

/-- A requirement object. The values of a primitive and the parts of a composition are not
empty. -/
inductive Requirement where
  | has (axis : Axis) (first : Text) (rest : List Text)
  | custom (predicate : TokenClaims → Bool) (description : Text)
  | compound (kind : Kind) (first : Requirement) (rest : List Requirement)

mutual
/-- `check`. -/
def Requirement.check (claims : TokenClaims) : Requirement → Bool
  | .has axis first rest => decide (granted claims axis ∩ (first :: rest).toFinset).Nonempty
  | .custom predicate _ => predicate claims
  | .compound kind first rest => kind.apply (first.check claims :: checks claims rest)

def checks (claims : TokenClaims) : List Requirement → List Bool
  | [] => []
  | part :: rest => part.check claims :: checks claims rest
end

/-! ## Building them -/

/-- The constructors, which raise a `ValueError` where there is nothing to ask for. -/
def init {α : Type} (make : α → List α → Requirement) : List α → Option Requirement
  | [] => none
  | first :: rest => some (make first rest)

def HasRole (values : List Text) : Option Requirement := init (.has .role) values

def HasScope (values : List Text) : Option Requirement := init (.has .scope) values

def AnyOf (parts : List Requirement) : Option Requirement := init (.compound .anyOf) parts

def AllOf (parts : List Requirement) : Option Requirement := init (.compound .allOf) parts

/-- A part, or its own parts if it is of the kind. -/
def spliced (kind : Kind) : Requirement → List Requirement
  | .compound other first rest =>
      if other = kind then first :: rest else [.compound other first rest]
  | part => [part]

/-- `_flatten`. -/
def flatten (kind : Kind) (parts : List Requirement) : List Requirement :=
  parts.flatMap (spliced kind)

/-- `__or__`. -/
def Requirement.or (self other : Requirement) : Option Requirement :=
  AnyOf (flatten .anyOf [self, other])

/-- `__and__`. -/
def Requirement.and (self other : Requirement) : Option Requirement :=
  AllOf (flatten .allOf [self, other])

/-- An expression: `binary` is `|` or `&`, and `call` is `AnyOf(…)` or `AllOf(…)`. -/
inductive Expr where
  | has (axis : Axis) (values : List Text)
  | custom (predicate : TokenClaims → Bool) (description : Text)
  | binary (kind : Kind) (left right : Expr)
  | call (kind : Kind) (parts : List Expr)

mutual
/-- The object an expression evaluates to. -/
def Expr.build : Expr → Option Requirement
  | .has .role values => HasRole values
  | .has .scope values => HasScope values
  | .custom predicate description => some (.custom predicate description)
  | .binary .anyOf left right => do (← left.build).or (← right.build)
  | .binary .allOf left right => do (← left.build).and (← right.build)
  | .call .anyOf parts => do AnyOf (← builds parts)
  | .call .allOf parts => do AllOf (← builds parts)

def builds : List Expr → Option (List Requirement)
  | [] => some []
  | part :: rest => do return (← part.build) :: (← builds rest)
end

/-- A value is a role of the realm or of the client, or a scope. -/
def holds (claims : TokenClaims) : Axis → Text → Bool
  | .role, value => claims.realmRoles.contains value || claims.clientRoles.contains value
  | .scope, value => claims.scopes.contains value

mutual
/-- The Boolean value of an expression. -/
def Expr.value (claims : TokenClaims) : Expr → Bool
  | .has axis values => values.any (holds claims axis)
  | .custom predicate _ => predicate claims
  | .binary .anyOf left right => left.value claims || right.value claims
  | .binary .allOf left right => left.value claims && right.value claims
  | .call kind parts => kind.apply (values claims parts)

def values (claims : TokenClaims) : List Expr → List Bool
  | [] => []
  | part :: rest => part.value claims :: values claims rest
end

/-! ### Lists of parts -/

theorem checks_eq_map (claims : TokenClaims) (parts : List Requirement) :
    checks claims parts = parts.map (·.check claims) := by
  induction parts with
  | nil => rfl
  | cons part rest ih => rw [checks, ih, List.map_cons]

theorem values_eq_map (claims : TokenClaims) (parts : List Expr) :
    values claims parts = parts.map (·.value claims) := by
  induction parts with
  | nil => rfl
  | cons part rest ih => rw [values, ih, List.map_cons]

theorem check_compound (claims : TokenClaims) (kind : Kind) (first : Requirement)
    (rest : List Requirement) : (Requirement.compound kind first rest).check claims =
      kind.apply ((first :: rest).map (·.check claims)) := by
  rw [Requirement.check, checks_eq_map, List.map_cons]

theorem build_has (axis : Axis) (values : List Text) :
    (Expr.has axis values).build = init (.has axis) values := by
  cases axis with
  | role => rfl
  | scope => rfl

theorem build_binary_eq_some {kind : Kind} {left right : Expr} {r : Requirement} :
    (Expr.binary kind left right).build = some r ↔
      ∃ first, left.build = some first ∧ ∃ second, right.build = some second ∧
        init (.compound kind) (flatten kind [first, second]) = some r := by
  have built : (Expr.binary kind left right).build = left.build.bind fun first =>
      right.build.bind fun second => init (.compound kind) (flatten kind [first, second]) := by
    cases kind with
    | anyOf => rfl
    | allOf => rfl
  simp only [built, Option.bind_eq_some_iff]

theorem build_call_eq_some {kind : Kind} {parts : List Expr} {r : Requirement} :
    (Expr.call kind parts).build = some r ↔
      ∃ objects, builds parts = some objects ∧ init (.compound kind) objects = some r := by
  cases kind with
  | anyOf => exact Option.bind_eq_some_iff
  | allOf => exact Option.bind_eq_some_iff

theorem builds_cons_eq_some {part : Expr} {rest : List Expr} {built : List Requirement} :
    builds (part :: rest) = some built ↔
      ∃ first, part.build = some first ∧ ∃ later, builds rest = some later ∧
        first :: later = built := by
  simp [builds, Option.bind_eq_some_iff]

/-- What holds of the objects that the parts build, each for its part, holds of the list. -/
theorem forall₂_of_builds {related : Expr → Requirement → Prop} {parts : List Expr}
    {built : List Requirement} (made : builds parts = some built)
    (each : ∀ part ∈ parts, ∀ object, part.build = some object → related part object) :
    List.Forall₂ related parts built := by
  induction parts generalizing built with
  | nil =>
      obtain rfl := Option.some.inj made
      exact .nil
  | cons part rest ih =>
      obtain ⟨first, here, later, there, rfl⟩ := builds_cons_eq_some.mp made
      obtain ⟨ofFirst, ofLater⟩ := List.forall_mem_cons.mp each
      exact .cons (ofFirst first here) (ih there ofLater)

/-- The induction over an expression, with its parts as a list. -/
@[elab_as_elim]
theorem Expr.induct {motive : Expr → Prop} (has : ∀ axis values, motive (.has axis values))
    (custom : ∀ predicate description, motive (.custom predicate description))
    (binary : ∀ kind left right, motive left → motive right → motive (.binary kind left right))
    (call : ∀ kind parts, (∀ part ∈ parts, motive part) → motive (.call kind parts))
    (e : Expr) : motive e :=
  @Expr.rec motive (fun parts => ∀ part ∈ parts, motive part) has custom binary call
    (List.forall_mem_nil _) (fun _ _ first later => List.forall_mem_cons.mpr ⟨first, later⟩) e

/-! ## Decisions -/

/-- What is granted are the values that hold. -/
theorem mem_granted {claims : TokenClaims} {axis : Axis} {value : Text} :
    value ∈ granted claims axis ↔ holds claims axis value = true := by
  cases axis with
  | role =>
      rw [granted, TokenClaims.roles, Finset.mem_union, List.mem_toFinset, List.mem_toFinset,
        holds, Bool.or_eq_true, List.contains_iff_mem, List.contains_iff_mem]
  | scope => rw [granted, List.mem_toFinset, holds, List.contains_iff_mem]

theorem check_has {claims : TokenClaims} {axis : Axis} {first : Text} {rest : List Text} :
    (Requirement.has axis first rest).check claims =
      (first :: rest).any (holds claims axis) := by
  rw [Requirement.check, Bool.eq_iff_iff, decide_eq_true_iff, List.any_eq_true]
  constructor
  · rintro ⟨value, both⟩
    obtain ⟨held, listed⟩ := Finset.mem_inter.mp both
    exact ⟨value, List.mem_toFinset.mp listed, mem_granted.mp held⟩
  · rintro ⟨value, listed, held⟩
    exact ⟨value, Finset.mem_inter.mpr ⟨mem_granted.mpr held, List.mem_toFinset.mpr listed⟩⟩

theorem apply_append (kind : Kind) (first later : List Bool) :
    kind.apply (first ++ later) = kind.apply [kind.apply first, kind.apply later] := by
  cases kind with
  | anyOf => simp [Kind.apply]
  | allOf => simp [Kind.apply]

/-- Only which decisions there are counts, not their order or number. -/
theorem apply_congr {kind : Kind} {decisions others : List Bool}
    (same : ∀ b, b ∈ decisions ↔ b ∈ others) : kind.apply decisions = kind.apply others := by
  rw [Bool.eq_iff_iff]
  cases kind with
  | anyOf => simp only [Kind.apply, List.any_eq_true, same]
  | allOf => simp only [Kind.apply, List.all_eq_true, same]

theorem apply_singleton (kind : Kind) (b : Bool) : kind.apply [b] = b := by
  cases kind with
  | anyOf => simp [Kind.apply]
  | allOf => simp [Kind.apply]

theorem value_binary (claims : TokenClaims) (kind : Kind) (left right : Expr) :
    (Expr.binary kind left right).value claims =
      kind.apply [left.value claims, right.value claims] := by
  cases kind with
  | anyOf => simp [Expr.value, Kind.apply]
  | allOf => simp [Expr.value, Kind.apply]

theorem value_call (claims : TokenClaims) (kind : Kind) (parts : List Expr) :
    (Expr.call kind parts).value claims = kind.apply (parts.map (·.value claims)) := by
  rw [Expr.value, values_eq_map]

/-- A part decides as the parts that are spliced in for it. -/
theorem apply_spliced (claims : TokenClaims) (kind : Kind) (part : Requirement) :
    kind.apply ((spliced kind part).map (·.check claims)) = part.check claims := by
  cases part with
  | compound other first rest =>
      by_cases same : other = kind
      · subst same
        have inner : spliced other (.compound other first rest) = first :: rest := if_pos rfl
        rw [inner, ← check_compound]
      · have alone : spliced kind (.compound other first rest) = [.compound other first rest] :=
          if_neg same
        rw [alone]
        exact apply_singleton kind _
  | _ => exact apply_singleton kind _

/-- **Splicing changes no decision.** -/
theorem apply_flatten (claims : TokenClaims) (kind : Kind) (parts : List Requirement) :
    kind.apply ((flatten kind parts).map (·.check claims)) =
      kind.apply (parts.map (·.check claims)) := by
  induction parts with
  | nil => rfl
  | cons part rest ih =>
      have split : flatten kind (part :: rest) = spliced kind part ++ flatten kind rest := rfl
      have both : (part :: rest).map (·.check claims) =
          [part.check claims] ++ rest.map (·.check claims) := rfl
      rw [split, List.map_append, apply_append, apply_spliced, ih, both, apply_append,
        apply_singleton]

theorem check_of_init {claims : TokenClaims} {kind : Kind} {parts : List Requirement}
    {r : Requirement} (made : init (.compound kind) parts = some r) :
    r.check claims = kind.apply (parts.map (·.check claims)) := by
  cases parts with
  | nil => cases made
  | cons first rest =>
      obtain rfl := Option.some.inj made
      exact check_compound claims kind first rest

/-- **An object decides as its expression reads.** -/
theorem check_of_build {e : Expr} {r : Requirement} (built : e.build = some r)
    (claims : TokenClaims) : r.check claims = e.value claims := by
  induction e using Expr.induct generalizing r with
  | has axis values =>
      rw [build_has] at built
      cases values with
      | nil => cases built
      | cons first rest =>
          obtain rfl := Option.some.inj built
          exact check_has
  | custom predicate description =>
      obtain rfl := Option.some.inj built
      rfl
  | binary kind left right ofLeft ofRight =>
      obtain ⟨first, here, second, there, made⟩ := build_binary_eq_some.mp built
      rw [check_of_init made, apply_flatten, value_binary, ← ofLeft here, ← ofRight there]
      rfl
  | call kind parts ih =>
      obtain ⟨objects, made, given⟩ := build_call_eq_some.mp built
      have each := forall₂_of_builds made fun part member object here => ih part member here
      have same : objects.map (·.check claims) = parts.map (·.value claims) := by
        clear made given built ih
        induction each with
        | nil => rfl
        | cons here _ later => rw [List.map_cons, List.map_cons, here, later]
      rw [check_of_init given, same, value_call]

/-! ## Rearranging -/

/-- Expressions that differ in the order, the grouping and the repetition of operands. -/
inductive Rearranges : Expr → Expr → Prop where
  | refl (e : Expr) : Rearranges e e
  | symm {e e' : Expr} : Rearranges e e' → Rearranges e' e
  | trans {e e' e'' : Expr} : Rearranges e e' → Rearranges e' e'' → Rearranges e e''
  | swap (kind : Kind) (a b : Expr) : Rearranges (.binary kind a b) (.binary kind b a)
  | regroup (kind : Kind) (a b c : Expr) :
      Rearranges (.binary kind (.binary kind a b) c) (.binary kind a (.binary kind b c))
  | duplicate (kind : Kind) (a : Expr) : Rearranges (.binary kind a a) a
  | called (kind : Kind) (a b : Expr) : Rearranges (.binary kind a b) (.call kind [a, b])
  | single (kind : Kind) (a : Expr) : Rearranges (.call kind [a]) a
  | listed (kind : Kind) (parts others : List Expr) (same : ∀ e, e ∈ parts ↔ e ∈ others) :
      Rearranges (.call kind parts) (.call kind others)
  | nested (kind : Kind) (before inner after : List Expr) :
      Rearranges (.call kind (before ++ .call kind inner :: after))
        (.call kind (before ++ inner ++ after))
  | valued (axis : Axis) (values others : List Text) (same : ∀ v, v ∈ values ↔ v ∈ others) :
      Rearranges (.has axis values) (.has axis others)
  | left (kind : Kind) {a a' : Expr} (b : Expr) :
      Rearranges a a' → Rearranges (.binary kind a b) (.binary kind a' b)
  | part (kind : Kind) (before : List Expr) {a a' : Expr} (after : List Expr) :
      Rearranges a a' →
        Rearranges (.call kind (before ++ a :: after)) (.call kind (before ++ a' :: after))

/-- Rearranged expressions have one value. -/
theorem Rearranges.value_eq {e e' : Expr} (rearranges : Rearranges e e') (claims : TokenClaims) :
    e.value claims = e'.value claims := by
  induction rearranges with
  | refl e => rfl
  | symm _ ih => exact ih.symm
  | trans _ _ first second => exact first.trans second
  | swap kind a b =>
      rw [value_binary, value_binary]
      exact apply_congr fun b => by simp [or_comm]
  | regroup kind a b c =>
      simp only [value_binary]
      cases kind with
      | anyOf => simp [Kind.apply, Bool.or_assoc]
      | allOf => simp [Kind.apply, Bool.and_assoc]
  | duplicate kind a =>
      rw [value_binary]
      refine (apply_congr fun b => ?_).trans (apply_singleton kind (a.value claims))
      simp
  | called kind a b => rw [value_binary, value_call, List.map_cons, List.map_cons, List.map_nil]
  | single kind a => rw [value_call, List.map_cons, List.map_nil, apply_singleton]
  | listed kind parts others same =>
      rw [value_call, value_call]
      exact apply_congr fun b => by simp [same]
  | nested kind before inner after =>
      simp only [value_call, List.map_append, List.map_cons]
      cases kind with
      | anyOf => simp [Kind.apply]
      | allOf => simp [Kind.apply]
  | valued axis values others same =>
      rw [Expr.value, Expr.value, Bool.eq_iff_iff, List.any_eq_true, List.any_eq_true]
      simp only [same]
  | left kind b _ ih => rw [value_binary, value_binary, ih]
  | part kind before after _ ih =>
      rw [value_call, value_call, List.map_append, List.map_append, List.map_cons, List.map_cons,
        ih]

/-- **Requirements mean what they read.** The object that an expression builds decides by
the Boolean value of the expression, for all claims; and the object of a rearranged
expression decides as it does. -/
theorem checks_expression (e : Expr) (r : Requirement) (built : e.build = some r) :
    (∀ claims, r.check claims = e.value claims) ∧
      ∀ e' r', Rearranges e e' → e'.build = some r' →
        ∀ claims, r'.check claims = r.check claims := by
  refine ⟨check_of_build built, fun e' r' rearranges built' claims => ?_⟩
  rw [check_of_build built', check_of_build built, rearranges.value_eq]

/-- `HasRole("support") | (HasRole("agent") & HasScope("tickets:close"))` -/
def supportOrAgent : Expr :=
  .binary .anyOf (.has .role [text "support"])
    (.binary .allOf (.has .role [text "agent"]) (.has .scope [text "tickets:close"]))

theorem supportOrAgent_checks : ∃ r, supportOrAgent.build = some r ∧
    (∀ claims, r.check claims = supportOrAgent.value claims) ∧
      ∀ e' r', Rearranges supportOrAgent e' → e'.build = some r' →
        ∀ claims, r'.check claims = r.check claims :=
  ⟨_, rfl, checks_expression supportOrAgent _ rfl⟩

/-! ## Granting more -/

mutual
/-- An expression of `HasRole` and `HasScope` alone, all of whose values are fit. -/
def Expr.Every (fit : Text → Prop) : Expr → Prop
  | .has _ values => ∀ value ∈ values, fit value
  | .custom _ _ => False
  | .binary _ left right => left.Every fit ∧ right.Every fit
  | .call _ parts => everyPart fit parts

def everyPart (fit : Text → Prop) : List Expr → Prop
  | [] => True
  | part :: rest => part.Every fit ∧ everyPart fit rest
end

theorem everyPart_iff {fit : Text → Prop} {parts : List Expr} :
    everyPart fit parts ↔ ∀ part ∈ parts, part.Every fit := by
  induction parts with
  | nil => exact iff_of_true trivial (List.forall_mem_nil _)
  | cons part rest ih => rw [everyPart, ih, List.forall_mem_cons]

/-- There is no `Custom` in the expression. -/
def Expr.CustomFree (e : Expr) : Prop := e.Every fun _ => True

/-- The value of an expression without `Custom` only rises with what is granted. -/
theorem value_mono {e : Expr} (free : e.CustomFree) {c d : TokenClaims}
    (more : ∀ axis, granted c axis ⊆ granted d axis) (passes : e.value c) : e.value d := by
  unfold Expr.CustomFree at free
  induction e using Expr.induct with
  | has axis values =>
      rw [Expr.value, List.any_eq_true] at passes ⊢
      obtain ⟨value, listed, held⟩ := passes
      exact ⟨value, listed, mem_granted.mp (more axis (mem_granted.mpr held))⟩
  | custom predicate description => exact free.elim
  | binary kind left right first second =>
      obtain ⟨leftFree, rightFree⟩ := free
      cases kind with
      | anyOf =>
          rw [Expr.value, Bool.or_eq_true] at passes ⊢
          exact passes.imp (first leftFree) (second rightFree)
      | allOf =>
          rw [Expr.value, Bool.and_eq_true] at passes ⊢
          exact passes.imp (first leftFree) (second rightFree)
  | call kind parts ih =>
      have each := everyPart_iff.mp free
      rw [value_call] at passes ⊢
      cases kind with
      | anyOf =>
          simp only [Kind.apply, List.any_eq_true, List.mem_map, id] at passes ⊢
          obtain ⟨_, ⟨part, member, rfl⟩, held⟩ := passes
          exact ⟨_, ⟨part, member, rfl⟩, ih part member (each part member) held⟩
      | allOf =>
          simp only [Kind.apply, List.all_eq_true, List.forall_mem_map, id] at passes ⊢
          exact fun part member => ih part member (each part member) (passes part member)

/-- **Granting more never locks a caller out.** A requirement built without `Custom` that
passes for some claims passes for all claims with those roles and scopes among theirs. -/
theorem check_mono (e : Expr) (r : Requirement) (built : e.build = some r) (free : e.CustomFree)
    (c d : TokenClaims) (roles : c.roles ⊆ d.roles) (scopes : c.scopes ⊆ d.scopes)
    (passes : r.check c) : r.check d := by
  rw [check_of_build built] at passes ⊢
  refine value_mono free (fun axis => ?_) passes
  cases axis with
  | role => exact roles
  | scope => exact fun value held => List.mem_toFinset.mpr (scopes (List.mem_toFinset.mp held))

/-- An agent who may close tickets is let in, and so is one who may also read them. -/
theorem supportOrAgent_mono : ∃ r, supportOrAgent.build = some r ∧
    r.check { sub := [], clientRoles := [text "agent"],
              scopes := [text "tickets:read", text "tickets:close"] } := by
  have free : supportOrAgent.CustomFree :=
    ⟨fun _ _ => trivial, fun _ _ => trivial, fun _ _ => trivial⟩
  refine ⟨_, rfl, ?_⟩
  refine check_mono supportOrAgent _ rfl free
    { sub := [], realmRoles := [text "agent"], scopes := [text "tickets:close"] } _ ?_ ?_ ?_
  · decide
  · decide
  · decide +kernel

end PyCommon.Requirements
