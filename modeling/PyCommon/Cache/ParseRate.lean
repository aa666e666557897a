import Mathlib.Data.List.TakeWhile
import PyCommon.Cache.FixedWindow

/-!
# Rates as text

`parse_rate` reads `"100/minute"`, `"10/15seconds"` and `"100 per 2 minutes"` with a regular
expression, and takes a pair as it is. A text is accepted exactly if it spells a rate: a count, a
slash or the word `per`, perhaps a multiple, and a unit in letters of either case, with blanks
between these and around the whole (`parseRate_iff`). The rate is then the one that is spelled,
so no text has two readings.
-/

set_option autoImplicit false

namespace PyCommon.Cache

/-! ## Characters -/

/-- What Python's tables of Unicode say: which characters are decimal digits, with their values,
and which are blanks; how many digits `int` reads at most; the `repr` of a text and of a pair. -/
structure Unicode where
  digit : Char → Option ℕ
  isSpace : Char → Bool
  maxDigits : ℕ
  repr : List Char → List Char
  reprPair : ℤ → ℚ → List Char
  digit_of_space : ∀ c, isSpace c → digit c = none
  slash : digit '/' = none ∧ isSpace '/' = false
  letter : ∀ c : Char, c.isAlpha → digit c = none ∧ isSpace c = false

variable {u : Unicode}

/-- `\d`. -/
def Unicode.isDigit (u : Unicode) (c : Char) : Bool := (u.digit c).isSome

/-- `str.strip`. -/
def Unicode.strip (u : Unicode) (content : List Char) : List Char :=
  ((content.dropWhile u.isSpace).reverse.dropWhile u.isSpace).reverse

/-- The number that a text of digits stands for. -/
def Unicode.value (u : Unicode) (digits : List Char) : ℕ :=
  digits.foldl (fun n c => 10 * n + (u.digit c).getD 0) 0

/-- `int` of a text of digits. -/
def Unicode.int (u : Unicode) (digits : List Char) : Option ℕ :=
  if digits.length ≤ u.maxDigits then some (u.value digits) else none

/-! ## The parser -/

/-- `_UNIT_SECONDS`. -/
def unitSeconds : List (String × {seconds : ℕ // 0 < seconds}) :=
  let second := ⟨1, by decide⟩
  let minute := ⟨60, by decide⟩
  let hour := ⟨3600, by decide⟩
  let day := ⟨86400, by decide⟩
  [("s", second), ("sec", second), ("secs", second), ("second", second), ("seconds", second),
    ("m", minute), ("min", minute), ("mins", minute), ("minute", minute), ("minutes", minute),
    ("h", hour), ("hr", hour), ("hour", hour), ("hours", hour),
    ("d", day), ("day", day), ("days", day)]

/-- The groups of a match. -/
structure Groups where
  times : List Char
  multiple : List Char
  unit : List Char
  deriving DecidableEq

/-- What follows a match of `\s*(?:/|\s+per\s+)`, short of the blanks at its end. -/
def afterSeparator (u : Unicode) (content : List Char) : Option (List Char) :=
  match content.dropWhile u.isSpace with
  | '/' :: rest => some rest
  | 'p' :: 'e' :: 'r' :: rest =>
      if content.head?.any u.isSpace && rest.head?.any u.isSpace then some rest else none
  | _ => none

/-- `_RATE_PATTERN.match`. -/
def matchRate (u : Unicode) (content : List Char) : Option Groups :=
  let times := content.takeWhile u.isDigit
  if times = [] then none
  else
    (afterSeparator u (content.dropWhile u.isDigit)).bind fun rest =>
      let rest := rest.dropWhile u.isSpace
      let unit := (rest.dropWhile u.isDigit).dropWhile u.isSpace
      if unit ≠ [] ∧ unit.all Char.isAlpha then
        some { times, multiple := rest.takeWhile u.isDigit, unit }
      else none

inductive RateError where
  | pair (times : ℤ) (seconds : ℚ)
  | invalid (rate : List Char)
  | digits
  | unknownUnit (unit rate : List Char)
  | counts (rate : List Char)
  deriving DecidableEq

/-- The text of a `ValueError`, short of the one that `int` raises on its own account. -/
def RateError.message (u : Unicode) : RateError → Option (List Char)
  | .pair times seconds => some ("Invalid rate ".toList ++ u.reprPair times seconds ++
      ": times must be >= 1 and seconds > 0".toList)
  | .invalid rate => some ("Invalid rate ".toList ++ u.repr rate ++
      "; expected e.g. '100/minute' or '10 per 5 seconds'".toList)
  | .digits => none
  | .unknownUnit unit rate =>
      let valid := (", ".intercalate ((unitSeconds.map Prod.fst).mergeSort fun a b => a ≤ b)).toList
      some ("Unknown rate unit ".toList ++ u.repr unit ++ " in ".toList ++ u.repr rate ++
        "; expected one of: ".toList ++ valid)
  | .counts rate => some ("Invalid rate ".toList ++ u.repr rate ++
      ": counts must be >= 1".toList)

/-- `parse_rate` of a text. -/
def parseRate (u : Unicode) (rate : List Char) : Except RateError Rate :=
  match matchRate u (u.strip rate) with
  | none => .error (.invalid rate)
  | some groups =>
      match u.int groups.times, if groups.multiple = [] then some 1 else u.int groups.multiple with
      | some times, some multiple =>
          let unit := groups.unit.map Char.toLower
          match unitSeconds.lookup (String.ofList unit) with
          | none => .error (.unknownUnit unit rate)
          | some seconds =>
              if counts : 1 ≤ times ∧ 1 ≤ multiple then
                .ok
                  { times
                    seconds := ((multiple * seconds.1 : ℕ) : ℚ)
                    times_pos := counts.1
                    seconds_pos := Nat.cast_pos.mpr (Nat.mul_pos counts.2 seconds.2) }
              else .error (.counts rate)
      | _, _ => .error .digits

/-- `parse_rate` of a pair. -/
def parsePair (times : ℤ) (seconds : ℚ) : Except RateError Rate :=
  if valid : 1 ≤ times ∧ 0 < seconds then
    .ok
      { times := times.toNat
        seconds
        times_pos := by omega
        seconds_pos := valid.2 }
  else .error (.pair times seconds)

/-! ## What is matched -/

/-- Blanks. -/
def Unicode.Blank (u : Unicode) (content : List Char) : Prop := ∀ c ∈ content, u.isSpace c

/-- What may stand between the count and the rest: `\s*(?:/|\s+per\s+)`. -/
inductive Separator (u : Unicode) : List Char → Prop where
  | slash {front : List Char} (blank : u.Blank front) : Separator u (front ++ ['/'])
  | per {front back : List Char} (blank : u.Blank front) (apart : front ≠ [])
      (blank' : u.Blank back) (apart' : back ≠ []) :
      Separator u (front ++ ['p', 'e', 'r'] ++ back)

/-- A text that the pattern matches, with its groups. -/
structure Matches (u : Unicode) (content : List Char) (groups : Groups) : Prop where
  parts : ∃ separator gap gap', content =
      groups.times ++ (separator ++ (gap ++ (groups.multiple ++ (gap' ++ groups.unit)))) ∧
    Separator u separator ∧ u.Blank gap ∧ u.Blank gap'
  times : groups.times ≠ [] ∧ ∀ c ∈ groups.times, u.isDigit c
  multiple : ∀ c ∈ groups.multiple, u.isDigit c
  unit : groups.unit ≠ [] ∧ ∀ c ∈ groups.unit, c.isAlpha

/-- A run of characters ends where one of another kind begins. -/
theorem takeWhile_run {p : Char → Bool} {front : List Char} {c : Char} (all : ∀ d ∈ front, p d)
    (stop : p c = false) (rest : List Char) :
    (front ++ c :: rest).takeWhile p = front ∧ (front ++ c :: rest).dropWhile p = c :: rest := by
  rw [List.takeWhile_append_of_pos all, List.dropWhile_append_of_pos all]
  simp [stop]

theorem Unicode.Blank.append {front back : List Char} (first : u.Blank front)
    (last : u.Blank back) : u.Blank (front ++ back) := by
  intro c member
  rcases List.mem_append.mp member with there | there
  · exact first c there
  · exact last c there

theorem blank_takeWhile (content : List Char) : u.Blank (content.takeWhile u.isSpace) :=
  fun _ member => List.mem_takeWhile_imp member

theorem isDigit_of_space {c : Char} (space : u.isSpace c) : u.isDigit c = false := by
  simp [Unicode.isDigit, u.digit_of_space c space]

theorem isDigit_of_letter {c : Char} (letter : c.isAlpha) : u.isDigit c = false := by
  simp [Unicode.isDigit, (u.letter c letter).1]

theorem afterSeparator_slash {front rest : List Char} (blank : u.Blank front) :
    afterSeparator u (front ++ '/' :: rest) = some rest := by
  have dropped : (front ++ '/' :: rest).dropWhile u.isSpace = '/' :: rest :=
    (takeWhile_run blank u.slash.2 rest).2
  simp [afterSeparator, dropped]

theorem afterSeparator_per {front back rest : List Char} (blank : u.Blank front)
    (apart : front ≠ []) (blank' : u.Blank back) (apart' : back ≠ []) :
    afterSeparator u (front ++ ['p', 'e', 'r'] ++ back ++ rest) = some (back ++ rest) := by
  have letter : u.isSpace 'p' = false := (u.letter 'p' (by decide)).2
  obtain ⟨c, front, rfl⟩ := List.exists_cons_of_ne_nil apart
  obtain ⟨d, back, rfl⟩ := List.exists_cons_of_ne_nil apart'
  have dropped : (c :: front ++ ('p' :: 'e' :: 'r' :: (d :: back ++ rest))).dropWhile u.isSpace =
      'p' :: 'e' :: 'r' :: (d :: back ++ rest) :=
    (takeWhile_run blank letter _).2
  have opens := blank c List.mem_cons_self
  have closes := blank' d List.mem_cons_self
  simp only [List.cons_append, List.nil_append, List.append_assoc] at dropped ⊢
  simp [afterSeparator, dropped, opens, closes]

/-- What follows a separator begins with blanks that belong to it or to the gap. -/
theorem exists_separator {content rest : List Char} (found : afterSeparator u content = some rest) :
    ∃ separator gap, content = separator ++ (gap ++ rest.dropWhile u.isSpace) ∧
      Separator u separator ∧ u.Blank gap := by
  have whole : content.takeWhile u.isSpace ++ content.dropWhile u.isSpace = content :=
    List.takeWhile_append_dropWhile
  have blanks := blank_takeWhile (u := u) content
  have later : rest.takeWhile u.isSpace ++ rest.dropWhile u.isSpace = rest :=
    List.takeWhile_append_dropWhile
  unfold afterSeparator at found
  split at found
  · rename_i next dropped
    obtain rfl := Option.some.inj found
    refine ⟨_, _, ?_, .slash blanks, blank_takeWhile next⟩
    rw [later, List.append_assoc, List.singleton_append, ← dropped, whole]
  · rename_i next dropped
    split at found
    · rename_i around
      obtain rfl := Option.some.inj found
      obtain ⟨before, after⟩ := Bool.and_eq_true_iff.mp around
      have opens : content.takeWhile u.isSpace ≠ [] := by
        cases content with
        | nil => cases before
        | cons c content => simp [show u.isSpace c from before]
      have closes : next.takeWhile u.isSpace ≠ [] := by
        cases next with
        | nil => cases after
        | cons c next => simp [show u.isSpace c from after]
      refine ⟨_, [], ?_, .per blanks opens (blank_takeWhile next) closes, List.forall_mem_nil _⟩
      rw [List.nil_append, List.append_assoc, later, List.append_assoc, List.cons_append,
        List.cons_append, List.singleton_append, ← dropped, whole]
    · cases found
  · cases found

/-- What is read after a separator. -/
theorem read_rest {gap multiple gap' unit : List Char} (blank : u.Blank gap)
    (digits : ∀ c ∈ multiple, u.isDigit c) (blank' : u.Blank gap') (apart : unit ≠ [])
    (letters : ∀ c ∈ unit, c.isAlpha) :
    let rest := (gap ++ (multiple ++ (gap' ++ unit))).dropWhile u.isSpace
    rest.takeWhile u.isDigit = multiple ∧
      (rest.dropWhile u.isDigit).dropWhile u.isSpace = unit := by
  obtain ⟨letter, unit, rfl⟩ := List.exists_cons_of_ne_nil apart
  have first := letters letter List.mem_cons_self
  have apart_ := (u.letter letter first).2
  cases multiple with
  | nil =>
      have dropped := (takeWhile_run (blank.append blank') apart_ unit).2
      rw [List.append_assoc] at dropped
      simp [dropped, isDigit_of_letter first, apart_]
  | cons digit multiple =>
      have number := digits digit List.mem_cons_self
      have solid : u.isSpace digit = false := by
        cases space : u.isSpace digit with
        | false => rfl
        | true => rw [isDigit_of_space space] at number; cases number
      obtain ⟨c, rest, split, stop⟩ : ∃ c rest, gap' ++ letter :: unit = c :: rest ∧
          u.isDigit c = false := by
        cases gap' with
        | nil => exact ⟨letter, unit, rfl, isDigit_of_letter first⟩
        | cons c gap' => exact ⟨c, _, rfl, isDigit_of_space (blank' c List.mem_cons_self)⟩
      have run := takeWhile_run digits stop rest
      have dropped := (takeWhile_run blank solid (multiple ++ c :: rest)).2
      have last := (takeWhile_run blank' apart_ unit).2
      rw [List.cons_append] at run
      simp only [List.cons_append, split, dropped, run.1, run.2, true_and]
      rw [← split, last]

theorem Separator.head {separator : List Char} (separates : Separator u separator)
    (rest : List Char) :
    ∃ c later, separator ++ rest = c :: later ∧ u.isDigit c = false := by
  have slash : u.isDigit '/' = false := by simp [Unicode.isDigit, u.slash.1]
  cases separates with
  | @slash front blank =>
      cases front with
      | nil => exact ⟨'/', rest, rfl, slash⟩
      | cons c front => exact ⟨c, _, rfl, isDigit_of_space (blank c List.mem_cons_self)⟩
  | @per front back blank apart =>
      obtain ⟨c, front, rfl⟩ := List.exists_cons_of_ne_nil apart
      exact ⟨c, _, rfl, isDigit_of_space (blank c List.mem_cons_self)⟩

/-- What a separator leaves, with blanks of its own. -/
theorem Separator.after {separator : List Char} (separates : Separator u separator)
    (rest : List Char) :
    ∃ gap, u.Blank gap ∧ afterSeparator u (separator ++ rest) = some (gap ++ rest) := by
  cases separates with
  | @slash front blank =>
      refine ⟨[], List.forall_mem_nil _, ?_⟩
      rw [List.append_assoc]
      exact afterSeparator_slash blank
  | @per front back blank apart blank' apart' =>
      exact ⟨back, blank', afterSeparator_per blank apart blank' apart'⟩

/-- **The pattern matches what it says**, in one way only. -/
theorem matchRate_iff {content : List Char} {groups : Groups} :
    matchRate u content = some groups ↔ Matches u content groups := by
  constructor
  · intro matched
    have times : content.takeWhile u.isDigit ++ content.dropWhile u.isDigit = content :=
      List.takeWhile_append_dropWhile
    have digits : ∀ c ∈ content.takeWhile u.isDigit, u.isDigit c :=
      fun _ member => List.mem_takeWhile_imp member
    dsimp only [matchRate] at matched
    split at matched
    · cases matched
    · rename_i counted
      obtain ⟨rest, found, matched⟩ := Option.bind_eq_some_iff.mp matched
      split at matched
      · rename_i named
        obtain rfl := Option.some.inj matched
        obtain ⟨separator, gap, split_, separates, blank⟩ := exists_separator found
        have whole : (rest.dropWhile u.isSpace).takeWhile u.isDigit ++
            ((rest.dropWhile u.isSpace).dropWhile u.isDigit) = rest.dropWhile u.isSpace :=
          List.takeWhile_append_dropWhile
        have last : ((rest.dropWhile u.isSpace).dropWhile u.isDigit).takeWhile u.isSpace ++
            ((rest.dropWhile u.isSpace).dropWhile u.isDigit).dropWhile u.isSpace =
              (rest.dropWhile u.isSpace).dropWhile u.isDigit :=
          List.takeWhile_append_dropWhile
        refine ⟨⟨separator, gap,
          ((rest.dropWhile u.isSpace).dropWhile u.isDigit).takeWhile u.isSpace, ?_, separates,
          blank, blank_takeWhile _⟩, ⟨counted, digits⟩,
          fun _ member => List.mem_takeWhile_imp member, named.1, List.all_eq_true.mp named.2⟩
        dsimp only
        rw [last, whole, ← split_, times]
      · cases matched
  · rintro ⟨⟨separator, gap, gap', rfl, separates, blank, blank'⟩, ⟨counted, digits⟩, multiple,
      named, letters⟩
    obtain ⟨c, later, split_, stop⟩ := separates.head
      (gap ++ (groups.multiple ++ (gap' ++ groups.unit)))
    obtain ⟨own, blankOwn, after⟩ := separates.after
      (gap ++ (groups.multiple ++ (gap' ++ groups.unit)))
    have run := takeWhile_run digits stop later
    have read := read_rest (blankOwn.append blank) multiple blank' named letters
    rw [← split_] at run
    rw [List.append_assoc] at read
    simp only [matchRate, run.1, run.2, if_neg counted, after, Option.bind_some, read.1, read.2]
    rw [if_pos ⟨named, List.all_eq_true.mpr letters⟩]

/-! ## What is accepted -/

theorem exists_strip (content : List Char) :
    ∃ before after, content = before ++ (u.strip content ++ after) ∧ u.Blank before ∧
      u.Blank after := by
  have front : content.takeWhile u.isSpace ++ content.dropWhile u.isSpace = content :=
    List.takeWhile_append_dropWhile
  have back : ((content.dropWhile u.isSpace).reverse.takeWhile u.isSpace) ++
      (content.dropWhile u.isSpace).reverse.dropWhile u.isSpace =
        (content.dropWhile u.isSpace).reverse :=
    List.takeWhile_append_dropWhile
  refine ⟨_, ((content.dropWhile u.isSpace).reverse.takeWhile u.isSpace).reverse, ?_,
    blank_takeWhile content, ?_⟩
  · rw [Unicode.strip, ← List.reverse_append, back, List.reverse_reverse, front]
  · intro c member
    exact List.mem_takeWhile_imp (List.mem_reverse.mp member)

/-- A text that neither begins nor ends with a blank is what is left of it between blanks. -/
theorem strip_of_solid {before body after : List Char} {first last : Char}
    (blank : u.Blank before) (blank' : u.Blank after) (head : body.head? = some first)
    (end_ : body.getLast? = some last) (solid : u.isSpace first = false)
    (solid' : u.isSpace last = false) : u.strip (before ++ (body ++ after)) = body := by
  obtain ⟨rest, rfl⟩ : ∃ rest, body = first :: rest := by
    cases body with
    | nil => cases head
    | cons c rest => exact ⟨rest, by rw [Option.some.inj head]⟩
  have dropped := (takeWhile_run blank solid (rest ++ after)).2
  have reversed : (first :: rest).reverse = last :: ((first :: rest).reverse.drop 1) := by
    rw [← List.head?_reverse] at end_
    cases split_ : (first :: rest).reverse with
    | nil => rw [split_] at end_; cases end_
    | cons c later => rw [split_] at end_; rw [← Option.some.inj end_]; rfl
  have blankBack : ∀ c ∈ after.reverse, u.isSpace c := fun c member =>
    blank' c (List.mem_reverse.mp member)
  have last_ := (takeWhile_run blankBack solid' ((first :: rest).reverse.drop 1)).2
  rw [← reversed, ← List.reverse_append] at last_
  rw [Unicode.strip, List.cons_append, dropped]
  rw [List.cons_append] at last_
  rw [last_, List.reverse_reverse]

theorem Matches.solid {content : List Char} {groups : Groups} (matched : Matches u content groups) :
    ∃ first last, content.head? = some first ∧ content.getLast? = some last ∧
      u.isSpace first = false ∧ u.isSpace last = false := by
  obtain ⟨⟨separator, gap, gap', rfl, -⟩, ⟨counted, digits⟩, -, named, letters⟩ := matched
  obtain ⟨first, times, split_⟩ := List.exists_cons_of_ne_nil counted
  refine ⟨first, groups.unit.getLast named, ?_, ?_, ?_, ?_⟩
  · rw [split_]
    rfl
  · simp [List.getLast?_append, List.getLast?_eq_some_getLast named]
  · have number := digits first (split_ ▸ List.mem_cons_self)
    cases space : u.isSpace first with
    | false => rfl
    | true => rw [isDigit_of_space space] at number; cases number
  · exact (u.letter _ (letters _ (List.getLast_mem named))).2

/-- A text spells a rate: between blanks, it is a match of the pattern, with counts of at least
one and a unit that is known. -/
structure Spells (u : Unicode) (content : List Char) (rate : Rate) : Prop where
  parts : ∃ before body after groups multiple seconds,
    content = before ++ (body ++ after) ∧ u.Blank before ∧ u.Blank after ∧
      Matches u body groups ∧
      u.int groups.times = some rate.times ∧
      (if groups.multiple = [] then some 1 else u.int groups.multiple) = some multiple ∧
      1 ≤ multiple ∧
      unitSeconds.lookup (String.ofList (groups.unit.map Char.toLower)) = some seconds ∧
      rate.seconds = ((multiple * seconds.1 : ℕ) : ℚ)

/-- **A text is accepted exactly if it spells a rate**, which is then the rate. -/
theorem parseRate_iff {content : List Char} {rate : Rate} :
    parseRate u content = .ok rate ↔ Spells u content rate := by
  constructor
  · intro parsed
    unfold parseRate at parsed
    split at parsed
    · cases parsed
    · rename_i groups matched
      split at parsed
      · rename_i times multiple counted multiplied
        dsimp only at parsed
        split at parsed
        · cases parsed
        · rename_i seconds known
          split at parsed
          · rename_i counts
            obtain rfl := Except.ok.inj parsed
            obtain ⟨before, after, split_, blank, blank'⟩ := exists_strip (u := u) content
            exact ⟨before, u.strip content, after, groups, multiple, seconds, split_, blank, blank',
              matchRate_iff.mp matched, counted, multiplied, counts.2, known, rfl⟩
          · cases parsed
      · cases parsed
  · rintro ⟨before, body, after, groups, multiple, seconds, rfl, blank, blank', matched, counted,
      multiplied, positive, known, length⟩
    obtain ⟨first, last, head, end_, solid, solid'⟩ := matched.solid
    obtain ⟨times, whole, times_pos, seconds_pos⟩ := rate
    obtain rfl : whole = ((multiple * seconds.1 : ℕ) : ℚ) := length
    simp only [parseRate, strip_of_solid blank blank' head end_ solid solid',
      matchRate_iff.mpr matched, counted, multiplied, known]
    rw [dif_pos ⟨times_pos, positive⟩]

/-- A pair is accepted exactly if it is a rate. -/
theorem parsePair_iff {times : ℤ} {seconds : ℚ} {rate : Rate} :
    parsePair times seconds = .ok rate ↔ (times, seconds) = (↑rate.times, rate.seconds) := by
  obtain ⟨whole, length, times_pos, seconds_pos⟩ := rate
  constructor
  · intro parsed
    unfold parsePair at parsed
    split at parsed
    · rename_i valid
      have same := Except.ok.inj parsed
      rw [← congrArg Rate.times same, ← congrArg Rate.seconds same,
        Int.toNat_of_nonneg (by omega)]
    · cases parsed
  · intro same
    obtain ⟨rfl, rfl⟩ := Prod.mk.inj same
    have valid : (1 : ℤ) ≤ whole ∧ 0 < seconds := ⟨by exact_mod_cast times_pos, seconds_pos⟩
    rw [parsePair, dif_pos valid]
    rfl

/-- The value of a digit of ASCII. -/
def asciiDigit (c : Char) : Option ℕ :=
  if 48 ≤ c.toNat ∧ c.toNat ≤ 57 then some (c.toNat - 48) else none

def asciiSpace (c : Char) : Bool :=
  c.toNat = 32 || (9 ≤ c.toNat && c.toNat ≤ 13) || (28 ≤ c.toNat && c.toNat ≤ 31)

theorem asciiDigit_of_space (c : Char) (space : asciiSpace c) : asciiDigit c = none := by
  simp only [asciiSpace, Bool.or_eq_true, Bool.and_eq_true, decide_eq_true_eq] at space
  exact if_neg (by omega)

theorem range_of_isAlpha {c : Char} (letter : c.isAlpha) :
    65 ≤ c.toNat ∧ c.toNat ≤ 90 ∨ 97 ≤ c.toNat ∧ c.toNat ≤ 122 := by
  rcases Bool.or_eq_true_iff.mp letter with upper | lower
  · have bounds : 'A'.val ≤ c.val ∧ c.val ≤ 'Z'.val := of_decide_eq_true upper
    exact .inl (bounds.imp UInt32.le_iff_toNat_le.mp UInt32.le_iff_toNat_le.mp)
  · obtain ⟨least, most⟩ := Bool.and_eq_true_iff.mp lower
    exact .inr ⟨UInt32.le_iff_toNat_le.mp (of_decide_eq_true least),
      UInt32.le_iff_toNat_le.mp (of_decide_eq_true most)⟩

theorem ascii_letter (c : Char) (letter : c.isAlpha) :
    asciiDigit c = none ∧ asciiSpace c = false := by
  have range := range_of_isAlpha letter
  refine ⟨if_neg (by omega), ?_⟩
  simp only [asciiSpace, Bool.or_eq_false_iff, Bool.and_eq_false_iff, decide_eq_false_iff_not]
  omega

theorem ascii_slash : asciiDigit '/' = none ∧ asciiSpace '/' = false := by decide

/-- The tables of Unicode as far as ASCII goes. -/
def ascii : Unicode where
  digit := asciiDigit
  isSpace := asciiSpace
  maxDigits := 4300
  repr content := ['\''] ++ content ++ ['\'']
  reprPair _ _ := "(...)".toList
  digit_of_space := asciiDigit_of_space
  slash := ascii_slash
  letter := ascii_letter

example : parseRate ascii " 10/15 Seconds".toList = .ok ⟨10, 15, by decide, by decide⟩ := by
  decide +kernel

end PyCommon.Cache
