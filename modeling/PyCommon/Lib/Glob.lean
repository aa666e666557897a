import Mathlib.Data.List.Infix

/-!
# Glob patterns

Patterns of bytes as Redis reads them: `*` for any bytes, `?` for one byte, `[…]` and `[^…]`
for one byte of a class or outside it, and `\` before a byte that stands for itself. A pattern
is read into its tokens (`tokens`), and the tokens accept words (`accepts`).

A pattern that ends in two plain bytes and a star ends in those three tokens, unless a class
was left open before them (`tokens_ending`).
-/

set_option autoImplicit false

namespace Glob

/-! ## Tokens -/

variable {α : Type*}

/-- Any word, or one letter that is admitted. -/
inductive Token (α : Type*) where
  | star
  | one (admits : α → Bool)

/-- The words that a list of tokens accepts. -/
def accepts : List (Token α) → List α → Bool
  | [], word => word.isEmpty
  | .star :: rest, word => word.tails.any (accepts rest)
  | .one _ :: _, [] => false
  | .one admits :: rest, b :: word => admits b && accepts rest word

@[simp] theorem accepts_nil {word : List α} : accepts [] word = true ↔ word = [] :=
  List.isEmpty_iff

theorem accepts_star {rest : List (Token α)} {word : List α} :
    accepts (.star :: rest) word = true ↔ ∃ skipped tail, word = skipped ++ tail ∧
      accepts rest tail = true := by
  simp only [accepts, List.any_eq_true, List.mem_tails]
  constructor
  · rintro ⟨tail, ⟨skipped, rfl⟩, accepted⟩
    exact ⟨skipped, tail, rfl, accepted⟩
  · rintro ⟨skipped, tail, rfl, accepted⟩
    exact ⟨tail, ⟨skipped, rfl⟩, accepted⟩

theorem accepts_one {admits : α → Bool} {rest : List (Token α)} {word : List α} :
    accepts (.one admits :: rest) word = true ↔
      ∃ b tail, word = b :: tail ∧ admits b = true ∧ accepts rest tail = true := by
  cases word with
  | nil => simp [accepts]
  | cons b tail => simp [accepts]

theorem accepts_star_nil (word : List α) : accepts [.star] word = true :=
  accepts_star.mpr ⟨word, [], (List.append_nil word).symm, accepts_nil.mpr rfl⟩

/-- Two lists of tokens accept in turn the two parts of a word. -/
theorem accepts_append {first second : List (Token α)} {word : List α} :
    accepts (first ++ second) word = true ↔ ∃ u v, word = u ++ v ∧
      accepts first u = true ∧ accepts second v = true := by
  induction first generalizing word with
  | nil => simp
  | cons token first ih =>
      cases token with
      | star =>
          simp only [List.cons_append, accepts_star, ih]
          constructor
          · rintro ⟨skipped, _, rfl, u, v, rfl, left, right⟩
            exact ⟨skipped ++ u, v, (List.append_assoc ..).symm, ⟨skipped, u, rfl, left⟩, right⟩
          · rintro ⟨_, v, rfl, ⟨skipped, u, rfl, left⟩, right⟩
            exact ⟨skipped, u ++ v, List.append_assoc .., u, v, rfl, left, right⟩
      | one admits =>
          simp only [List.cons_append, accepts_one, ih]
          constructor
          · rintro ⟨b, _, rfl, admitted, u, v, rfl, left, right⟩
            exact ⟨b :: u, v, rfl, ⟨b, u, rfl, admitted, left⟩, right⟩
          · rintro ⟨_, v, rfl, ⟨b, u, rfl, admitted, left⟩, right⟩
            exact ⟨b, u ++ v, rfl, admitted, u, v, rfl, left, right⟩

/-- A star takes up whatever is put before what it accepts. -/
theorem accepts_star_append (extra : List α) {rest : List (Token α)} {word : List α}
    (accepted : accepts (.star :: rest) word = true) :
    accepts (.star :: rest) (extra ++ word) = true := by
  obtain ⟨skipped, tail, rfl, later⟩ := accepts_star.mp accepted
  exact accepts_star.mpr ⟨extra ++ skipped, tail, (List.append_assoc ..).symm, later⟩

/-- The token is not a star. -/
def Token.IsOne (token : Token α) : Prop := ∃ admits, token = .one admits

/-- Without a star the length of the word is fixed. -/
theorem length_of_accepts {fixed : List (Token α)} (starless : ∀ token ∈ fixed, token.IsOne)
    {word : List α} (accepted : accepts fixed word = true) : word.length = fixed.length := by
  induction fixed generalizing word with
  | nil => rw [accepts_nil.mp accepted]; rfl
  | cons token fixed ih =>
      obtain ⟨admits, rfl⟩ := starless token List.mem_cons_self
      obtain ⟨b, tail, rfl, _, later⟩ := accepts_one.mp accepted
      have rest := ih (fun other member => starless other (List.mem_cons_of_mem _ member)) later
      rw [List.length_cons, List.length_cons, rest]

/-- Tokens either have no star or have a first one. -/
theorem starless_or_first (all : List (Token α)) :
    (∀ token ∈ all, token.IsOne) ∨ ∃ before after, all = before ++ .star :: after ∧
      ∀ token ∈ before, token.IsOne := by
  induction all with
  | nil => exact Or.inl fun _ member => (List.not_mem_nil member).elim
  | cons token all ih =>
      cases token with
      | star => exact Or.inr ⟨[], all, rfl, fun _ member => (List.not_mem_nil member).elim⟩
      | one admits =>
          rcases ih with starless | ⟨before, after, rfl, starless⟩
          · exact Or.inl (List.forall_mem_cons.mpr ⟨⟨admits, rfl⟩, starless⟩)
          · exact Or.inr ⟨.one admits :: before, after, rfl,
              List.forall_mem_cons.mpr ⟨⟨admits, rfl⟩, starless⟩⟩

/-! ## Literals -/

variable [DecidableEq α]

/-- The token of a letter that stands for itself. -/
def literal (b : α) : Token α := .one fun other => other = b

theorem accepts_literal_cons {b : α} {rest : List (Token α)} {word : List α} :
    accepts (literal b :: rest) word = true ↔ ∃ tail, word = b :: tail ∧
      accepts rest tail = true := by
  simp only [literal, accepts_one, decide_eq_true_eq]
  constructor
  · rintro ⟨_, tail, rfl, rfl, accepted⟩
    exact ⟨tail, rfl, accepted⟩
  · rintro ⟨tail, rfl, accepted⟩
    exact ⟨b, tail, rfl, rfl, accepted⟩

/-- Literals accept the word that they spell, and what follows them the rest. -/
theorem accepts_literals {spelled word : List α} {rest : List (Token α)} :
    accepts (spelled.map literal ++ rest) word = true ↔ ∃ tail, word = spelled ++ tail ∧
      accepts rest tail = true := by
  induction spelled generalizing word with
  | nil => simp
  | cons b spelled ih =>
      simp only [List.map_cons, List.cons_append, accepts_literal_cons, ih]
      constructor
      · rintro ⟨_, rfl, tail, rfl, accepted⟩
        exact ⟨tail, rfl, accepted⟩
      · rintro ⟨tail, rfl, accepted⟩
        exact ⟨spelled ++ tail, rfl, tail, rfl, accepted⟩

/-! ## Reading a pattern -/

/-- A class in brackets, as far as it has been read. -/
structure Class where
  negated : Bool
  members : UInt8 → Bool

def Class.token (cls : Class) : Token UInt8 := .one fun b => cls.members b != cls.negated

def Class.add (cls : Class) (more : UInt8 → Bool) : Class :=
  { cls with members := fun b => cls.members b || more b }

def Class.opening : Class := { negated := false, members := fun _ => false }

/-- The bytes from `first` to `last`, which may stand the other way around. Bytes are compared
by their `rank`, because the `char` of C may be signed. -/
def between (rank : UInt8 → ℤ) (first last b : UInt8) : Bool :=
  min (rank first) (rank last) ≤ rank b && rank b ≤ max (rank first) (rank last)

variable (rank : UInt8 → ℤ)

/-- The tokens of a pattern, from within a class if one is open. A class that is not closed
takes up the rest of the pattern; a last `\` stands for itself. -/
def readTokens : Option Class → List UInt8 → List (Token UInt8)
  | none, [] => []
  | some cls, [] => [cls.token]
  | none, b :: rest =>
      if b = 42 then .star :: readTokens none rest
      else if b = 63 then .one (fun _ => true) :: readTokens none rest
      else if b = 92 then
        match rest with
        | [] => [literal b]
        | escaped :: rest => literal escaped :: readTokens none rest
      else if b = 91 then
        match rest with
        | [] => readTokens (some Class.opening) []
        | next :: later =>
            if next = 94 then readTokens (some { Class.opening with negated := true }) later
            else readTokens (some Class.opening) (next :: later)
      else literal b :: readTokens none rest
  | some cls, b :: rest =>
      if b = 93 then cls.token :: readTokens none rest
      else
        match rest with
        | [] => [(cls.add fun other => other = b).token]
        | next :: later =>
            if b = 92 then readTokens (some (cls.add fun other => other = next)) later
            else
              match later with
              | [] => readTokens (some (cls.add fun other => other = b)) [next]
              | last :: after =>
                  if next = 45 then readTokens (some (cls.add (between rank b last))) after
                  else readTokens (some (cls.add fun other => other = b)) (next :: last :: after)

def tokens (pattern : List UInt8) : List (Token UInt8) := readTokens rank none pattern

/-- The bytes with a meaning of their own outside a class. -/
def wild : List UInt8 := [42, 63, 91, 92]

/-- The bytes with a meaning of their own anywhere. -/
def special : List UInt8 := wild ++ [45, 93, 94]

theorem readTokens_plain {b : UInt8} (tame : b ∉ wild) (rest : List UInt8) :
    readTokens rank none (b :: rest) = literal b :: readTokens rank none rest := by
  have others : b ≠ 42 ∧ b ≠ 63 ∧ b ≠ 91 ∧ b ≠ 92 := by simpa [wild] using tame
  cases rest with
  | nil => simp only [readTokens, if_neg others.1, if_neg others.2.1, if_neg others.2.2.1,
      if_neg others.2.2.2]
  | cons next later => simp only [readTokens, if_neg others.1, if_neg others.2.1,
      if_neg others.2.2.1, if_neg others.2.2.2]

theorem tokens_plain_append {plain : List UInt8} (tame : ∀ b ∈ plain, b ∉ wild)
    (rest : List UInt8) : tokens rank (plain ++ rest) = plain.map literal ++ tokens rank rest := by
  induction plain with
  | nil => rfl
  | cons b plain ih =>
      have later := ih fun other member => tame other (List.mem_cons_of_mem _ member)
      rw [List.cons_append, tokens, readTokens_plain rank (tame b List.mem_cons_self), ← tokens,
        later]
      rfl

/-! ## Open classes -/

/-- A class that is not closed by a byte goes on after it, or after more of the pattern. -/
theorem readTokens_within (cls : Class) {b : UInt8} (other : b ≠ 93) (rest : List UInt8) :
    ∃ cls' later, later <:+ rest ∧
      readTokens rank (some cls) (b :: rest) = readTokens rank (some cls') later := by
  cases rest with
  | nil => exact ⟨_, [], List.suffix_rfl, if_neg other⟩
  | cons next later =>
      by_cases escaped : b = 92
      · refine ⟨cls.add fun other => other = next, later, List.suffix_cons .., ?_⟩
        cases later with
        | nil => exact (if_neg other).trans (if_pos escaped)
        | cons last after => exact (if_neg other).trans (if_pos escaped)
      · cases later with
        | nil => exact ⟨_, [next], List.suffix_rfl, (if_neg other).trans (if_neg escaped)⟩
        | cons last after =>
            by_cases range : next = 45
            · exact ⟨_, after, (List.suffix_cons ..).trans (List.suffix_cons ..),
                (if_neg other).trans ((if_neg escaped).trans (if_pos range))⟩
            · exact ⟨_, _, List.suffix_rfl,
                (if_neg other).trans ((if_neg escaped).trans (if_neg range))⟩

theorem readTokens_opening (rest : List UInt8) :
    ∃ cls later, later <:+ rest ∧
      readTokens rank none (91 :: rest) = readTokens rank (some cls) later := by
  cases rest with
  | nil => exact ⟨_, [], List.suffix_rfl, rfl⟩
  | cons next later =>
      by_cases negated : next = 94
      · exact ⟨_, later, List.suffix_cons .., if_pos negated⟩
      · exact ⟨_, _, List.suffix_rfl, if_neg negated⟩

/-- A class that is never closed takes up the rest of the pattern. -/
theorem readTokens_unclosed (cls : Class) (rest : List UInt8) (unclosed : 93 ∉ rest) :
    ∃ admits, readTokens rank (some cls) rest = [.one admits] := by
  induction count : rest.length using Nat.strong_induction_on generalizing cls rest with
  | _ size ih =>
      cases rest with
      | nil => exact ⟨_, rfl⟩
      | cons b rest =>
          have other : b ≠ 93 := fun same => unclosed (same ▸ List.mem_cons_self)
          obtain ⟨cls', later, suffix, same⟩ := readTokens_within rank cls other rest
          have smaller : later.length < size := by
            rw [← count, List.length_cons]
            exact Nat.lt_succ_of_le suffix.length_le
          rw [same]
          exact ih _ smaller cls' later
            (fun member => unclosed (List.mem_cons_of_mem _ (suffix.subset member))) rfl

/-! ## The end of a pattern -/

section Ending

variable (d e : UInt8)

/-- The tokens end in the two bytes and the star, or in a class that took them up. -/
def Ends (read all : List (Token UInt8)) : Prop :=
  all = read ++ [literal d, literal e, .star] ∨ ∃ admits, all = read ++ [.one admits]

/-- The token of a byte that is neither `[` nor `\`. -/
def single (b : UInt8) : Token UInt8 :=
  if b = 42 then .star else if b = 63 then .one fun _ => true else literal b

variable {d e}

theorem Ends.cons {read all : List (Token UInt8)} (ends : Ends d e read all)
    (token : Token UInt8) : Ends d e (token :: read) (token :: all) := by
  rcases ends with rfl | ⟨admits, rfl⟩
  · exact Or.inl rfl
  · exact Or.inr ⟨admits, rfl⟩

theorem suffix_append_cases {later body tail : List UInt8} (suffix : later <:+ body ++ tail) :
    (∃ inner, inner.length ≤ body.length ∧ later = inner ++ tail) ∨ later <:+ tail := by
  rcases List.suffix_or_suffix_of_suffix suffix (List.suffix_append body tail) with short | long
  · exact Or.inr short
  · obtain ⟨inner, rfl⟩ := long
    refine Or.inl ⟨inner, ?_, rfl⟩
    have within := suffix.length_le
    rw [List.length_append, List.length_append] at within
    exact Nat.le_of_add_le_add_right within

/-- What is read of a pattern that goes on with the two bytes and a star: fewer tokens than
bytes, or one for each. -/
def Reads (d e : UInt8) (body : List UInt8) (all : List (Token UInt8)) : Prop :=
  (∃ read, read.length < body.length ∧ Ends d e read all)
    ∨ (∀ b ∈ body, b ≠ 91 ∧ b ≠ 92)
      ∧ all = body.map single ++ [literal d, literal e, .star]

theorem Reads.ends {body : List UInt8} {all : List (Token UInt8)} (reads : Reads d e body all) :
    ∃ read, read.length ≤ body.length ∧ Ends d e read all := by
  rcases reads with ⟨read, fewer, ends⟩ | ⟨_, rfl⟩
  · exact ⟨read, Nat.le_of_lt fewer, ends⟩
  · exact ⟨body.map single, by rw [List.length_map], Or.inl rfl⟩

/-- A byte that is neither `[` nor `\` gives a token of its own. -/
theorem Reads.single {body : List UInt8} {all : List (Token UInt8)} (reads : Reads d e body all)
    {b : UInt8} (bracket : b ≠ 91) (backslash : b ≠ 92) :
    Reads d e (b :: body) (Glob.single b :: all) := by
  rcases reads with ⟨read, fewer, ends⟩ | ⟨each, rfl⟩
  · exact Or.inl ⟨Glob.single b :: read, Nat.succ_lt_succ fewer, ends.cons _⟩
  · exact Or.inr ⟨List.forall_mem_cons.mpr ⟨⟨bracket, backslash⟩, each⟩, rfl⟩

theorem readTokens_single {b : UInt8} (bracket : b ≠ 91) (backslash : b ≠ 92)
    (rest : List UInt8) :
    readTokens rank none (b :: rest) = single b :: readTokens rank none rest := by
  unfold single
  split
  · rename_i star
    subst star
    cases rest <;> rfl
  · split
    · rename_i any
      subst any
      cases rest <;> rfl
    · rename_i noStar noAny
      exact readTokens_plain rank (by simp [wild, *]) rest

theorem readTokens_close (cls : Class) (rest : List UInt8) :
    readTokens rank (some cls) (93 :: rest) = cls.token :: readTokens rank none rest := by
  cases rest with
  | nil => rfl
  | cons next later => cases later <;> rfl

variable (d e) in
/-- What the pattern `body` followed by the two bytes and a star gives, within a class and
outside. -/
structure Ending (body : List UInt8) : Prop where
  within : ∀ cls, ∃ read, read.length ≤ body.length ∧
    Ends d e read (readTokens rank (some cls) (body ++ [d, e, 42]))
  outside : Reads d e body (readTokens rank none (body ++ [d, e, 42]))

variable {rank} (first : d ∉ special) (second : e ∉ special)
include first second

theorem unclosed_tail : 93 ∉ [d, e, 42] := by
  simp only [special, wild, List.cons_append, List.nil_append, List.mem_cons] at *
  rintro (rfl | rfl | none_)
  · exact first (by decide)
  · exact second (by decide)
  · exact absurd none_ (by decide)

omit first in
theorem readTokens_second : readTokens rank none [e, 42] = [literal e, .star] :=
  readTokens_plain rank (fun member => second (List.mem_append_left _ member)) [42]

theorem ending_nil : Ending rank d e [] := by
  refine ⟨fun cls => ?_, Or.inr ⟨fun _ member => (List.not_mem_nil member).elim, ?_⟩⟩
  · obtain ⟨admits, read⟩ := readTokens_unclosed rank cls _ (unclosed_tail first second)
    exact ⟨[], Nat.zero_le _, Or.inr ⟨admits, read⟩⟩
  · exact (readTokens_plain rank (fun member => first (List.mem_append_left _ member)) _).trans
      (congrArg _ (readTokens_second second))

/-- A class that is still open goes on in the body or in the end. -/
theorem ends_of_open {body : List UInt8}
    (shorter : ∀ inner, inner.length ≤ body.length → Ending rank d e inner) (cls : Class)
    {later : List UInt8} (suffix : later <:+ body ++ [d, e, 42]) :
    ∃ read, read.length ≤ body.length ∧ Ends d e read (readTokens rank (some cls) later) := by
  rcases suffix_append_cases suffix with ⟨inner, fewer, rfl⟩ | beyond
  · obtain ⟨read, few, ends⟩ := (shorter inner fewer).within cls
    exact ⟨read, few.trans fewer, ends⟩
  · obtain ⟨admits, read⟩ := readTokens_unclosed rank cls later
      fun member => unclosed_tail first second (beyond.subset member)
    exact ⟨[], Nat.zero_le _, Or.inr ⟨admits, read⟩⟩

theorem within_cons {body : List UInt8}
    (shorter : ∀ inner, inner.length ≤ body.length → Ending rank d e inner) (cls : Class)
    (b : UInt8) : ∃ read, read.length ≤ (b :: body).length ∧
      Ends d e read (readTokens rank (some cls) (b :: body ++ [d, e, 42])) := by
  by_cases closing : b = 93
  · subst closing
    obtain ⟨read, few, ends⟩ := (shorter body (Nat.le_refl _)).outside.ends
    rw [List.cons_append, readTokens_close]
    exact ⟨cls.token :: read, Nat.succ_le_succ few, ends.cons _⟩
  · obtain ⟨cls', later, suffix, same⟩ := readTokens_within rank cls closing (body ++ [d, e, 42])
    obtain ⟨read, few, ends⟩ := ends_of_open first second shorter cls' suffix
    exact ⟨read, few.trans (Nat.le_succ _), same ▸ ends⟩

theorem outside_cons {body : List UInt8}
    (shorter : ∀ inner, inner.length ≤ body.length → Ending rank d e inner) (b : UInt8) :
    Reads d e (b :: body) (readTokens rank none (b :: body ++ [d, e, 42])) := by
  by_cases bracket : b = 91
  · subst bracket
    obtain ⟨cls, later, suffix, same⟩ := readTokens_opening rank (body ++ [d, e, 42])
    obtain ⟨read, few, ends⟩ := ends_of_open first second shorter cls suffix
    exact Or.inl ⟨read, Nat.lt_succ_of_le few, same ▸ ends⟩
  · by_cases backslash : b = 92
    · subst backslash
      cases body with
      | nil =>
          refine Or.inl ⟨[], Nat.zero_lt_one, Or.inl ?_⟩
          exact congrArg (literal d :: ·) (readTokens_second second)
      | cons escaped body =>
          obtain ⟨read, few, ends⟩ := (shorter body (Nat.le_succ _)).outside.ends
          exact Or.inl ⟨literal escaped :: read, Nat.succ_lt_succ (Nat.lt_succ_of_le few),
            ends.cons _⟩
    · rw [List.cons_append, readTokens_single rank bracket backslash]
      exact (shorter body (Nat.le_refl _)).outside.single bracket backslash

theorem ending (body : List UInt8) : Ending rank d e body := by
  induction count : body.length using Nat.strong_induction_on generalizing body with
  | _ size ih =>
      cases body with
      | nil => exact ending_nil first second
      | cons b body =>
          subst count
          have shorter : ∀ inner, inner.length ≤ body.length → Ending rank d e inner :=
            fun inner fewer => ih inner.length (Nat.lt_succ_of_le fewer) inner rfl
          exact ⟨fun cls => within_cons first second shorter cls b,
            outside_cons first second shorter b⟩

/-- **How a pattern reads that ends in two plain bytes and a star**: it ends in these three
tokens or in a class, after fewer tokens than there are bytes before them; or each byte before
them has given its own. -/
theorem tokens_ending (body : List UInt8) :
    Reads d e body (tokens rank (body ++ [d, e, 42])) := (ending first second body).outside

end Ending

end Glob
