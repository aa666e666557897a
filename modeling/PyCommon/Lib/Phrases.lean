import PyCommon.Lib.CodePoints
import PyCommon.Lib.Runs

/-!
# Phrases in words, connectives and parentheses

A reader of phrases in which words are joined by connectives and grouped by parentheses,
as in `a OR (b AND c)`. No connective binds closer than another: a phrase that joins
operands by two different connectives without parentheses is not read at all. So whatever
is read has one meaning, and two things that are written alike mean the same.

What words mean, and how the connectives combine meanings, is a parameter (`Language`).
The reader is a machine that takes one character at a time; it keeps the word it is in,
the group it is in and the groups around that.

`operand_word`, `operand_group` and `Reads.joined` say how words, groups and joined operands
are read, each wherever an operand is awaited; `read_eq_some` is the whole phrase. Which words
a phrase has (`Word`) is told from its text alone.
-/

set_option autoImplicit false

namespace Phrases

open CodePoints (Text code)
open StepSystem

/-- What the words of a phrase are: connectives, or words with a meaning. -/
structure Language (Kind α : Type) where
  connective : Text → Option Kind
  word : Text → Option α
  combine : Kind → List α → α
  /-- How a single operand is combined. -/
  alone : Kind

/-- A group that is being read. -/
structure Group (Kind α : Type) where
  operands : List α := []
  kind : Option Kind := none
  awaiting : Bool := true

structure State (Kind α : Type) where
  letters : Text := []
  group : Group Kind α := {}
  outer : List (Group Kind α) := []

variable {Kind α : Type} [DecidableEq Kind]

section Reader

variable (language : Language Kind α)

def Group.push (group : Group Kind α) (meaning : α) : Group Kind α :=
  { group with operands := group.operands ++ [meaning], awaiting := false }

/-- A connective stands between operands, and agrees with those before it. -/
def Group.connect (group : Group Kind α) (kind : Kind) : Option (Group Kind α) :=
  if group.awaiting = false ∧ (group.kind = none ∨ group.kind = some kind) then
    some { group with kind := some kind, awaiting := true }
  else none

def Group.meaning (group : Group Kind α) : α :=
  language.combine (group.kind.getD language.alone) group.operands

/-- A word is over. -/
def Group.take (group : Group Kind α) (word : Text) : Option (Group Kind α) :=
  match language.connective word with
  | some kind => group.connect kind
  | none => if group.awaiting then (language.word word).map group.push else none

/-- What the machine makes of the letters it has read, where a word may end. -/
def State.flush (s : State Kind α) : Option (State Kind α) :=
  if s.letters = [] then some s
  else (s.group.take language s.letters).map fun group => { s with letters := [], group }

def State.enter (s : State Kind α) : Option (State Kind α) :=
  if s.group.awaiting then some { outer := s.group :: s.outer } else none

def State.leave (s : State Kind α) : Option (State Kind α) :=
  match s.outer with
  | around :: outer =>
      if s.group.awaiting then none
      else some { group := around.push (s.group.meaning language), outer }
  | [] => none

def State.step (s : State Kind α) (c : ℕ) : Option (State Kind α) :=
  if c = code ' ' then s.flush language
  else if c = code '(' then (s.flush language).bind State.enter
  else if c = code ')' then (s.flush language).bind (State.leave language)
  else some { s with letters := s.letters ++ [c] }

/-- The meaning of a phrase, if it is one. -/
def read (phrase : Text) : Option α :=
  ((exec (State.step language) {} phrase).bind (State.flush language)).bind fun s =>
    if s.group.awaiting = false ∧ s.outer = [] then some (s.group.meaning language) else none

end Reader

/-! ## Reading -/

variable {language : Language Kind α}

/-- The text takes the machine to a state in which, once the last word is over, it is as
given. -/
def Reads (language : Language Kind α) (s : State Kind α) (phrase : Text) (t : State Kind α) :
    Prop :=
  ∃ middle, exec (State.step language) s phrase = some middle ∧
    middle.flush language = some t ∧ t.letters = []

/-- A text that is read as one operand, wherever one is awaited. -/
def Operand (language : Language Kind α) (phrase : Text) (meaning : α) : Prop :=
  ∀ s : State Kind α, s.letters = [] → s.group.awaiting = true →
    Reads language s phrase { s with group := s.group.push meaning }

/-- A text that is read as all of a group. -/
def Whole (language : Language Kind α) (phrase : Text) (meaning : α) : Prop :=
  ∀ outer : List (Group Kind α), ∃ group : Group Kind α, group.awaiting = false ∧
    group.meaning language = meaning ∧ Reads language { outer } phrase { group, outer }

/-- A character of a word. -/
def IsLetter (c : ℕ) : Prop := c ≠ code ' ' ∧ c ≠ code '(' ∧ c ≠ code ')'

instance (c : ℕ) : Decidable (IsLetter c) :=
  inferInstanceAs (Decidable (c ≠ code ' ' ∧ c ≠ code '(' ∧ c ≠ code ')'))

theorem exec_letters {s : State Kind α} {word : Text} (letters : ∀ c ∈ word, IsLetter c) :
    exec (State.step language) s word = some { s with letters := s.letters ++ word } := by
  induction word generalizing s with
  | nil => simp
  | cons c rest ih =>
      obtain ⟨⟨blank, opening, closing⟩, later⟩ := List.forall_mem_cons.mp letters
      have taken : s.step language c = some { s with letters := s.letters ++ [c] } := by
        rw [State.step, if_neg blank, if_neg opening, if_neg closing]
      rw [exec_cons, taken, Option.bind_some, ih later, List.append_assoc]
      rfl

theorem flush_of_nil {s : State Kind α} (nil : s.letters = []) : s.flush language = some s :=
  if_pos nil

theorem flush_of_take {s : State Kind α} (filled : s.letters ≠ []) {group : Group Kind α}
    (taken : s.group.take language s.letters = some group) :
    s.flush language = some { s with letters := [], group } := by
  rw [State.flush, if_neg filled, taken, Option.map_some]

/-- A delimiter after a text acts on what was read of it. -/
theorem step_of_flush {middle t : State Kind α} (flushed : middle.flush language = some t)
    (nil : t.letters = []) {c : ℕ} (delimiter : ¬ IsLetter c) :
    middle.step language c = t.step language c := by
  unfold State.step
  rw [flushed, flush_of_nil nil]
  split
  · rfl
  · split
    · rfl
    · split
      · rfl
      · rename_i blank opening closing
        exact absurd ⟨blank, opening, closing⟩ delimiter

theorem Reads.nil {s t : State Kind α} {phrase : Text} (read : Reads language s phrase t) :
    t.letters = [] := by
  obtain ⟨_, _, _, nil⟩ := read
  exact nil

/-- **Words.** -/
theorem operand_word {word : Text} {meaning : α} (letters : ∀ c ∈ word, IsLetter c)
    (filled : word ≠ []) (plain : language.connective word = none)
    (means : language.word word = some meaning) : Operand language word meaning := by
  intro s nil awaiting
  obtain ⟨_, group, outer⟩ := s
  obtain rfl := nil
  have taken : group.take language word = some (group.push meaning) := by
    rw [Group.take, plain, awaiting, means]
    rfl
  exact ⟨_, exec_letters letters, flush_of_take filled taken, rfl⟩

/-- **Groups.** -/
theorem operand_group {phrase : Text} {meaning : α} (whole : Whole language phrase meaning) :
    Operand language (code '(' :: phrase ++ [code ')']) meaning := by
  intro s nil awaiting
  obtain ⟨_, around, outer⟩ := s
  obtain rfl := nil
  obtain ⟨group, done, rfl, middle, run, flushed, cleared⟩ := whole (around :: outer)
  have entered : (State.mk [] around outer).step language (code '(') =
      some { outer := around :: outer } := by
    have enter : (State.mk [] around outer).enter = some { outer := around :: outer } :=
      if_pos awaiting
    rw [State.step, if_neg (by decide), if_pos rfl, flush_of_nil rfl, Option.bind_some, enter]
  have left : (State.mk [] group (around :: outer)).step language (code ')') =
      some { group := around.push (group.meaning language), outer } := by
    rw [State.step, if_neg (by decide), if_neg (by decide), if_pos rfl, flush_of_nil rfl,
      Option.bind_some, State.leave]
    exact if_neg (Bool.eq_false_iff.mp done)
  have delimiter : ¬ IsLetter (code ')') := fun letter => letter.2.2 rfl
  refine ⟨_, ?_, flush_of_nil rfl, rfl⟩
  rw [List.cons_append, exec_cons, entered, Option.bind_some, exec_append_of_eq_some run, exec_cons,
    step_of_flush flushed cleared delimiter, left]
  rfl

section Joined

variable {kind : Kind} {word : Text}

/-- What stands between operands. -/
def separator (word : Text) : Text := code ' ' :: word ++ [code ' ']

theorem intercalate_cons_cons (phrase next : Text) (phrases : List Text) :
    (separator word).intercalate (phrase :: next :: phrases) =
      phrase ++ separator word ++ (separator word).intercalate (next :: phrases) := by
  simp [List.intercalate]

theorem intercalate_separator (phrase : Text) (phrases : List Text) :
    (separator word).intercalate (phrase :: phrases) =
      phrase ++ phrases.flatMap (separator word ++ ·) := by
  induction phrases generalizing phrase with
  | nil => simp [List.intercalate]
  | cons next rest ih =>
      rw [intercalate_cons_cons, ih, List.flatMap_cons, List.append_assoc, List.append_assoc]

/-- One more operand, after a connective. -/
theorem Reads.separator {s t u : State Kind α} {phrase next : Text}
    (begun : Reads language s phrase t) (whole : t.group.awaiting = false)
    (agrees : t.group.kind = none ∨ t.group.kind = some kind) (letters : ∀ c ∈ word, IsLetter c)
    (filled : word ≠ []) (joins : language.connective word = some kind)
    (later : Reads language
      { t with group := { t.group with kind := some kind, awaiting := true } } next u) :
    Reads language s (phrase ++ (separator word ++ next)) u := by
  obtain ⟨middle, run, flushed, nil⟩ := begun
  obtain ⟨last, run', flushed', nil'⟩ := later
  obtain ⟨_, group, outer⟩ := t
  obtain rfl := nil
  have blank : ¬ IsLetter (code ' ') := fun letter => letter.1 rfl
  have before : middle.step language (code ' ') = some { group, outer } := by
    rw [step_of_flush flushed rfl blank, State.step, if_pos rfl, flush_of_nil rfl]
  have taken : group.take language word =
      some { group with kind := some kind, awaiting := true } := by
    rw [Group.take, joins]
    exact if_pos ⟨whole, agrees⟩
  have after : State.step language { letters := [] ++ word, group, outer } (code ' ') =
      some { group := { group with kind := some kind, awaiting := true }, outer } := by
    rw [State.step, if_pos rfl]
    exact flush_of_take filled taken
  refine ⟨last, ?_, flushed', nil'⟩
  rw [exec_append_of_eq_some run, Phrases.separator, List.cons_append, List.cons_append, exec_cons,
    before, Option.bind_some, List.append_assoc, exec_append_of_eq_some (exec_letters letters),
    List.singleton_append, exec_cons, after, Option.bind_some, run']

theorem Reads.joined {s t : State Kind α} {phrase : Text} {phrases : List Text}
    {meanings : List α} (begun : Reads language s phrase t) (whole : t.group.awaiting = false)
    (agrees : t.group.kind = none ∨ t.group.kind = some kind) (letters : ∀ c ∈ word, IsLetter c)
    (filled : word ≠ []) (joins : language.connective word = some kind)
    (each : List.Forall₂ (Operand language) phrases meanings) :
    Reads language s (phrase ++ phrases.flatMap (Phrases.separator word ++ ·))
      { t with group := { operands := t.group.operands ++ meanings
                          kind := if phrases = [] then t.group.kind else some kind
                          awaiting := false } } := by
  induction each generalizing phrase t with
  | nil =>
      obtain ⟨letters, ⟨operands, kind, awaiting⟩, outer⟩ := t
      obtain rfl := whole
      simpa using begun
  | @cons next meaning rest meanings operand _ ih =>
      have nil : t.letters = [] := begun.nil
      have later := begun.separator whole agrees letters filled joins (operand _ nil rfl)
      have both := ih later rfl (.inr rfl)
      rw [List.flatMap_cons, if_neg (List.cons_ne_nil _ _)]
      simpa [Group.push] using both

/-- **Joined operands.** A single operand is combined alone, whatever the kind, so the two
must agree. -/
theorem whole_joined {phrases : List Text} {meanings : List α}
    (each : List.Forall₂ (Operand language) phrases meanings) (given : phrases ≠ [])
    (letters : ∀ c ∈ word, IsLetter c) (filled : word ≠ [])
    (joins : language.connective word = some kind)
    (alone : ∀ a, language.combine language.alone [a] = language.combine kind [a]) :
    Whole language ((separator word).intercalate phrases) (language.combine kind meanings) := by
  cases each with
  | nil => exact absurd rfl given
  | @cons phrase meaning phrases meanings operand others =>
      intro outer
      have begun := operand { outer } rfl rfl
      have read := begun.joined rfl (.inl rfl) letters filled joins others
      rw [← intercalate_separator] at read
      refine ⟨_, rfl, ?_, read⟩
      cases others with
      | nil => exact alone meaning
      | cons _ _ => rfl

end Joined

/-! ### Words -/

/-- A word of a phrase: letters with a blank or a parenthesis, or nothing, on either side. -/
def Word (phrase word : Text) : Prop :=
  (∀ c ∈ word, IsLetter c) ∧ ∃ before after, phrase = before ++ word ++ after ∧
    (∀ c ∈ before.getLast?, ¬ IsLetter c) ∧ ∀ c ∈ after.head?, ¬ IsLetter c

theorem Word.self {word : Text} (letters : ∀ c ∈ word, IsLetter c) : Word word word :=
  ⟨letters, [], [], by simp, by simp, by simp⟩

/-- What a phrase is put between leaves its words. -/
theorem Word.between {phrase word before after : Text} (inside : Word phrase word)
    (ends : ∀ c ∈ before.getLast?, ¬ IsLetter c) (begins : ∀ c ∈ after.head?, ¬ IsLetter c) :
    Word (before ++ phrase ++ after) word := by
  obtain ⟨letters, first, last, rfl, left, right⟩ := inside
  refine ⟨letters, before ++ first, last ++ after, by simp only [List.append_assoc], ?_, ?_⟩
  · intro c member
    rw [List.getLast?_append] at member
    cases first with
    | nil => exact ends c member
    | cons d rest => exact left c (by simpa using member)
  · intro c member
    rw [List.head?_append] at member
    cases last with
    | nil => exact begins c member
    | cons d rest => exact right c (by simpa using member)

theorem Word.group {phrase word : Text} (inside : Word phrase word) :
    Word (code '(' :: phrase ++ [code ')']) word := by
  have grouped : Word ([code '('] ++ phrase ++ [code ')']) word :=
    inside.between (by decide) (by decide)
  exact grouped

/-- The words of joined phrases. -/
theorem Word.joined {connective phrase word : Text} {phrases : List Text}
    (member : phrase ∈ phrases) (inside : Word phrase word) :
    Word ((separator connective).intercalate phrases) word := by
  induction phrases with
  | nil => cases member
  | cons first rest ih =>
      cases rest with
      | nil =>
          obtain rfl := List.mem_singleton.mp member
          simpa [List.intercalate] using inside
      | cons next rest =>
          have blank : ¬ IsLetter (code ' ') := fun letter => letter.1 rfl
          rw [intercalate_cons_cons]
          rcases List.mem_cons.mp member with rfl | later
          · have first : Word ([] ++ phrase ++ (separator connective ++
                (separator connective).intercalate (next :: rest))) word :=
              inside.between (by simp) (by simpa [separator] using blank)
            rwa [List.nil_append, ← List.append_assoc] at first
          · have ends : first ++ separator connective =
                first ++ code ' ' :: connective ++ [code ' '] := by simp [separator]
            have last : Word (first ++ separator connective ++
                (separator connective).intercalate (next :: rest) ++ []) word := by
              refine (ih later).between (fun c member => ?_) (by simp)
              rw [ends, List.getLast?_concat] at member
              obtain rfl := Option.some.inj member
              exact blank
            rwa [List.append_nil] at last

/-- **Phrases.** -/
theorem read_eq_some {phrase : Text} {meaning : α} (whole : Whole language phrase meaning) :
    read language phrase = some meaning := by
  obtain ⟨group, done, rfl, middle, run, flushed, nil⟩ := whole []
  rw [read, run, Option.bind_some, flushed, Option.bind_some]
  exact if_pos ⟨done, rfl⟩

end Phrases
