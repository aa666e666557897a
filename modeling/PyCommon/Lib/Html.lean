import Mathlib.Data.List.Basic
import PyCommon.Lib.Runs

/-!
# Escaped text in markup

The fragment of HTML that a program writes by hand: a declaration, tags with quoted attributes,
and characters, of which those that could be taken for markup are written as references. It is
read one character after the other, by a tokenizer with a mode for each place in a tag.

Escaped text keeps the tokenizer in the place where it stands and is read back as it was
(`exec_escape`). So whatever a program writes token by token is read back as these tokens, and no
text that it escapes can add or end a tag (`read_render`).
-/

set_option autoImplicit false

namespace Html

open StepSystem

/-! ## Writing -/

structure Attribute where
  name : List Char
  value : List Char
  deriving DecidableEq

inductive Token where
  | declaration (content : List Char)
  | opening (name : List Char) (attributes : List Attribute)
  | closing (name : List Char)
  | char (c : Char)
  deriving DecidableEq

/-- The characters that have to be written as references, with the names of these. -/
def references : List (List Char × Char) :=
  [(['a', 'm', 'p'], '&'), (['l', 't'], '<'), (['g', 't'], '>'), (['q', 'u', 'o', 't'], '"'),
    (['#', 'x', '2', '7'], '\'')]

def escapeChar (c : Char) : List Char :=
  match references.find? fun reference => reference.2 = c with
  | some reference => '&' :: reference.1 ++ [';']
  | none => [c]

/-- `html.escape`. -/
def escape (content : List Char) : List Char := content.flatMap escapeChar

def Attribute.render (attr : Attribute) : List Char :=
  ' ' :: attr.name ++ '=' :: '"' :: escape attr.value ++ ['"']

def Token.render : Token → List Char
  | .declaration content => '<' :: '!' :: content ++ ['>']
  | .opening name attributes => '<' :: name ++ attributes.flatMap Attribute.render ++ ['>']
  | .closing name => '<' :: '/' :: name ++ ['>']
  | .char c => escapeChar c

def render (tokens : List Token) : List Char := tokens.flatMap Token.render

/-- The characters of a text, as tokens. -/
def chars (content : List Char) : List Token := content.map .char

@[simp] theorem escape_append (front back : List Char) :
    escape (front ++ back) = escape front ++ escape back := List.flatMap_append

@[simp] theorem render_append (front back : List Token) :
    render (front ++ back) = render front ++ render back := List.flatMap_append

theorem render_cons (token : Token) (tokens : List Token) :
    render (token :: tokens) = token.render ++ render tokens := List.flatMap_cons

theorem render_flatMap {α : Type*} (parts : List α) (write : α → List Token) :
    render (parts.flatMap write) = parts.flatMap fun part => render (write part) :=
  List.flatMap_assoc

theorem render_chars (content : List Char) : render (chars content) = escape content := by
  rw [render, chars, List.flatMap_map]
  rfl

/-! ## Reading -/

/-- Where text stands: between tags, or as what has been read of the value of an attribute. -/
inductive Place where
  | content
  | value (tag : List Char) (before : List Attribute) (name value : List Char)
  deriving DecidableEq

inductive Mode where
  | text (place : Place)
  | reference (place : Place) (name : List Char)
  | opened
  | declaration (content : List Char)
  | closing (name : List Char)
  | opening (name : List Char)
  | attributeName (tag : List Char) (before : List Attribute) (name : List Char)
  | equals (tag : List Char) (before : List Attribute) (name : List Char)
  | after (tag : List Char) (attributes : List Attribute)
  deriving DecidableEq

/-- A tokenizer, with the tokens it has read. -/
structure Tokenizer where
  mode : Mode := .text .content
  tokens : List Token := []
  deriving DecidableEq

namespace Tokenizer

/-- A character of text. -/
def take (tokens : List Token) (c : Char) : Place → Tokenizer
  | .content => { tokens := tokens ++ [.char c] }
  | .value tag before name value =>
      { mode := .text (.value tag before name (value ++ [c])), tokens }

/-- The end of a tag. -/
def emit (tokens : List Token) (token : Token) : Tokenizer := { tokens := tokens ++ [token] }

def step (s : Tokenizer) (c : Char) : Option Tokenizer :=
  match s.mode with
  | .text place =>
      if c = '&' then some { s with mode := .reference place [] }
      else
        match place with
        | .content => some (if c = '<' then { s with mode := .opened } else take s.tokens c place)
        | .value tag before name value =>
            some (if c = '"' then { s with mode := .after tag (before ++ [⟨name, value⟩]) }
              else take s.tokens c place)
  | .reference place name =>
      if c = ';' then (references.lookup name).map fun meant => take s.tokens meant place
      else some { s with mode := .reference place (name ++ [c]) }
  | .opened =>
      if c = '!' then some { s with mode := .declaration [] }
      else if c = '/' then some { s with mode := .closing [] }
      else if c.isAlpha then some { s with mode := .opening [c] }
      else none
  | .declaration content =>
      some (if c = '>' then emit s.tokens (.declaration content)
        else { s with mode := .declaration (content ++ [c]) })
  | .closing name =>
      some (if c = '>' then emit s.tokens (.closing name)
        else { s with mode := .closing (name ++ [c]) })
  | .opening name =>
      some (if c = '>' then emit s.tokens (.opening name [])
        else if c = ' ' then { s with mode := .attributeName name [] [] }
        else { s with mode := .opening (name ++ [c]) })
  | .attributeName tag before name =>
      some (if c = '=' then { s with mode := .equals tag before name }
        else { s with mode := .attributeName tag before (name ++ [c]) })
  | .equals tag before name =>
      if c = '"' then some { s with mode := .text (.value tag before name []) } else none
  | .after tag attributes =>
      if c = '>' then some (emit s.tokens (.opening tag attributes))
      else if c = ' ' then some { s with mode := .attributeName tag attributes [] }
      else none

end Tokenizer

open Tokenizer

/-- The tokens of a text that does not end within a tag or a reference. -/
def read (content : List Char) : Option (List Token) :=
  (exec step {} content).bind fun s => if s.mode = .text .content then some s.tokens else none

/-! ## Escaped text -/

/-- The tokenizer after text in this place. -/
def taken (tokens : List Token) (content : List Char) : Place → Tokenizer
  | .content => { tokens := tokens ++ chars content }
  | .value tag before name value =>
      { mode := .text (.value tag before name (value ++ content)), tokens }

theorem exec_escapeChar (c : Char) (tokens : List Token) (place : Place) :
    exec step { mode := .text place, tokens } (escapeChar c) = some (take tokens c place) := by
  unfold escapeChar
  cases found : references.find? fun reference => reference.2 = c with
  | none =>
      have plain : ∀ special ∈ ['&', '<', '"'], c ≠ special := by
        rintro special member rfl
        revert found member
        simp only [List.mem_cons, List.not_mem_nil, or_false]
        rintro found (rfl | rfl | rfl) <;> cases found
      have amp := plain '&' (by simp)
      have lt := plain '<' (by simp)
      have quote := plain '"' (by simp)
      cases place <;> simp [exec_cons, step, amp, lt, quote]
  | some reference =>
      obtain rfl : reference.2 = c := by simpa using List.find?_some found
      have listed := List.mem_of_find?_eq_some found
      simp only [references, List.mem_cons, List.not_mem_nil, or_false] at listed
      rcases listed with rfl | rfl | rfl | rfl | rfl <;> rfl

/-- **Escaped text stays where it stands** and is read as it was. -/
theorem exec_escape (content : List Char) (tokens : List Token) (place : Place) :
    exec step { mode := .text place, tokens } (escape content) =
      some (taken tokens content place) := by
  induction content generalizing tokens place with
  | nil => cases place <;> simp [escape, taken, chars]
  | cons c rest ih =>
      rw [escape, List.flatMap_cons]
      refine (exec_append_of_eq_some (exec_escapeChar c tokens place)).trans ?_
      cases place with
      | content =>
          refine (ih (tokens ++ [.char c]) .content).trans ?_
          simp [taken, chars]
      | value tag before name value =>
          refine (ih tokens (.value tag before name (value ++ [c]))).trans ?_
          simp [taken]

/-! ## Tags -/

/-- A name before which no tag and no attribute ends. -/
def NamePlain (name : List Char) : Prop := ∀ c ∈ name, c ∉ ['>', ' ', '=']

/-- Tags with names that can be read. -/
def Token.Plain : Token → Prop
  | .declaration content => '>' ∉ content
  | .opening name attributes =>
      name.head?.any Char.isAlpha ∧ NamePlain name ∧ ∀ attr ∈ attributes, NamePlain attr.name
  | .closing name => '>' ∉ name
  | .char _ => True

instance (name : List Char) : Decidable (NamePlain name) :=
  List.decidableBAll (fun c => c ∉ ['>', ' ', '=']) name

instance (token : Token) : Decidable token.Plain :=
  match token with
  | .declaration _ => inferInstanceAs (Decidable (¬ _))
  | .opening _ _ => inferInstanceAs (Decidable (_ ∧ _ ∧ _))
  | .closing _ => inferInstanceAs (Decidable (¬ _))
  | .char _ => .isTrue trivial

/-- Tokens that can be read. -/
def Written (tokens : List Token) : Prop := ∀ token ∈ tokens, token.Plain

instance (tokens : List Token) : Decidable (Written tokens) :=
  List.decidableBAll Token.Plain tokens

theorem written_append {front back : List Token} :
    Written (front ++ back) ↔ Written front ∧ Written back := List.forall_mem_append

theorem written_chars (content : List Char) : Written (chars content) := by
  intro token member
  obtain ⟨c, -, rfl⟩ := List.mem_map.mp member
  trivial

/-- A mode that collects characters up to one at which it stops. -/
theorem exec_collect {mode : List Char → Mode} {tokens : List Token} {stop : List Char}
    (keeps : ∀ front c, c ∉ stop →
      step { mode := mode front, tokens } c = some { mode := mode (front ++ [c]), tokens })
    {content : List Char} (plain : ∀ c ∈ content, c ∉ stop) (front : List Char) :
    exec step { mode := mode front, tokens } content =
      some { mode := mode (front ++ content), tokens } := by
  induction content generalizing front with
  | nil => simp
  | cons c content ih =>
      rw [exec_cons, keeps front c (plain c List.mem_cons_self), Option.bind_some,
        ih (fun d member => plain d (List.mem_cons_of_mem c member)) (front ++ [c])]
      simp

theorem exec_declaration {content : List Char} (tokens : List Token) (plain : '>' ∉ content) :
    exec step { mode := .declaration [], tokens } (content ++ ['>']) =
      some { tokens := tokens ++ [.declaration content] } := by
  have collected : exec step { mode := .declaration [], tokens } content =
      some { mode := .declaration content, tokens } :=
    exec_collect (fun _ c (apart : c ∉ ['>']) => by simp_all [step])
      (fun c member same => plain (List.mem_singleton.mp same ▸ member)) []
  rw [exec_append_of_eq_some collected]
  rfl

theorem exec_closing {name : List Char} (tokens : List Token) (plain : '>' ∉ name) :
    exec step { mode := .closing [], tokens } (name ++ ['>']) =
      some { tokens := tokens ++ [.closing name] } := by
  have collected : exec step { mode := .closing [], tokens } name =
      some { mode := .closing name, tokens } :=
    exec_collect (fun _ c (apart : c ∉ ['>']) => by simp_all [step])
      (fun c member same => plain (List.mem_singleton.mp same ▸ member)) []
  rw [exec_append_of_eq_some collected]
  rfl

theorem exec_name {name : List Char} (front : List Char) (tokens : List Token)
    (plain : NamePlain name) :
    exec step { mode := .opening front, tokens } name =
      some { mode := .opening (front ++ name), tokens } :=
  exec_collect (fun _ _ apart => by simp_all [step]) plain front

theorem exec_attributeName {name : List Char} (tag : List Char) (before : List Attribute)
    (tokens : List Token) (plain : NamePlain name) :
    exec step { mode := .attributeName tag before [], tokens } name =
      some { mode := .attributeName tag before name, tokens } :=
  exec_collect (fun _ _ apart => by simp_all [step]) plain []

theorem NamePlain.tail {c : Char} {rest : List Char} (plain : NamePlain (c :: rest)) :
    NamePlain rest := fun d member => plain d (List.mem_cons_of_mem c member)

/-- A mode in which the next attribute of a tag may begin. -/
def between (tag : List Char) : List Attribute → Mode
  | [] => .opening tag
  | attr :: rest => .after tag (attr :: rest)

theorem between_concat (tag : List Char) (before : List Attribute) (attr : Attribute) :
    between tag (before ++ [attr]) = .after tag (before ++ [attr]) := by
  cases before <;> rfl

theorem step_between_space (tag : List Char) (before : List Attribute) (tokens : List Token) :
    step { mode := between tag before, tokens } ' ' =
      some { mode := .attributeName tag before [], tokens } := by
  cases before <;> simp [between, step]

theorem step_between_gt (tag : List Char) (attributes : List Attribute) (tokens : List Token) :
    step { mode := between tag attributes, tokens } '>' =
      some { tokens := tokens ++ [.opening tag attributes] } := by
  cases attributes <;> simp [between, step, emit]

theorem exec_attribute (tag : List Char) (before : List Attribute) (attr : Attribute)
    (tokens : List Token) (plain : NamePlain attr.name) :
    exec step { mode := between tag before, tokens } attr.render =
      some { mode := between tag (before ++ [attr]), tokens } := by
  rw [Attribute.render, List.append_assoc, List.cons_append, exec_cons, step_between_space,
    Option.bind_some, exec_append_of_eq_some (exec_attributeName _ _ _ plain)]
  rw [List.cons_append, List.cons_append, exec_cons]
  simp only [step, if_true, Option.bind_some, exec_cons]
  rw [exec_append_of_eq_some (exec_escape attr.value tokens (.value tag before _ []))]
  simp [exec_cons, step, taken, between_concat]

theorem exec_attributes (tag : List Char) (attributes before : List Attribute)
    (tokens : List Token) (plain : ∀ attr ∈ attributes, NamePlain attr.name) :
    exec step { mode := between tag before, tokens } (attributes.flatMap Attribute.render) =
      some { mode := between tag (before ++ attributes), tokens } := by
  induction attributes generalizing before with
  | nil => simp
  | cons attr rest ih =>
      rw [List.flatMap_cons,
        exec_append_of_eq_some (exec_attribute _ _ _ _ (plain _ List.mem_cons_self)),
        ih (before ++ [attr]) fun later member => plain later (List.mem_cons_of_mem _ member)]
      simp

/-! ## Whole texts -/

theorem exec_token {token : Token} (plain : token.Plain) (tokens : List Token) :
    exec step { tokens } token.render = some { tokens := tokens ++ [token] } := by
  cases token with
  | declaration content => exact exec_declaration tokens plain
  | closing name => exact exec_closing tokens plain
  | char c => exact exec_escapeChar c tokens .content
  | opening name attributes =>
      obtain ⟨first, named, attributed⟩ := plain
      obtain ⟨c, rest, rfl⟩ : ∃ c rest, name = c :: rest := by
        cases name with
        | nil => cases first
        | cons c rest => exact ⟨c, rest, rfl⟩
      have letter : c.isAlpha = true := first
      have bang : c ≠ '!' := by rintro rfl; cases letter
      have slash : c ≠ '/' := by rintro rfl; cases letter
      rw [Token.render, List.append_assoc, List.cons_append, List.cons_append, exec_cons]
      have opened : step { tokens } '<' = some { mode := .opened, tokens } := rfl
      rw [opened, Option.bind_some, exec_cons]
      simp only [step, if_neg bang, if_neg slash, if_pos letter, Option.bind_some]
      rw [exec_append_of_eq_some (exec_name [c] tokens named.tail), List.singleton_append]
      have all : exec step { mode := .opening (c :: rest), tokens }
          (attributes.flatMap Attribute.render) =
            some { mode := between (c :: rest) attributes, tokens } :=
        exec_attributes (c :: rest) attributes [] tokens attributed
      rw [exec_append_of_eq_some all, exec_cons, step_between_gt]
      rfl

/-- **What is written token by token is read back as these tokens.** -/
theorem read_render {tokens : List Token} (written : Written tokens) :
    read (render tokens) = some tokens := by
  have whole : ∀ before, exec step { tokens := before } (render tokens) =
      some { tokens := before ++ tokens } := by
    induction tokens with
    | nil => simp [render]
    | cons token rest ih =>
        intro before
        rw [render_cons, exec_append_of_eq_some (exec_token (written _ List.mem_cons_self) before),
          ih (fun later member => written later (List.mem_cons_of_mem _ member))
            (before ++ [token])]
        simp
  rw [read, whole []]
  rfl

end Html
