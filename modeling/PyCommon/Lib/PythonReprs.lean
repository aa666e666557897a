import PyCommon.Lib.PythonJson

/-!
# A `repr` tells its value

No two values have the same `repr`, and no `repr` begins another that is followed by a comma, a
colon or a closing bracket: what stands between the values of a text, and so the text of several
values, is read in one way only (`repr_inj`).

Which kind of value a `repr` is of is told by its first character (`group`). A string is read
character by character (`readChar`), and the words and numbers are the longest runs without a
delimiter.
-/

set_option autoImplicit false

namespace Python

open CodePoints (Text code text)

/-! ## Strings -/

/-- The code point of so many hexadecimal digits, and what follows them. -/
def readHex (width : ℕ) (input : Text) : Option (ℕ × Text) :=
  (Numerals.hexFrom 0 ((input.take width).map Char.ofNat)).map fun n => (n, input.drop width)

/-- One character of a string between quotes. -/
def readChar : Text → Option (ℕ × Text)
  | [] => none
  | c :: rest =>
      if c = code '\\' then
        match rest with
        | [] => none
        | letter :: rest =>
            if letter = code 't' then some (9, rest)
            else if letter = code 'n' then some (10, rest)
            else if letter = code 'r' then some (13, rest)
            else if letter = code 'x' then readHex 2 rest
            else if letter = code 'u' then readHex 4 rest
            else if letter = code 'U' then readHex 8 rest
            else some (letter, rest)
      else some (c, rest)

theorem readHex_printHex {width n : ℕ} (small : n < 16 ^ width) (rest : Text) :
    readHex width ((Numerals.printHex width n).map code ++ rest) = some (n, rest) := by
  have size : ((Numerals.printHex width n).map code).length = width := by
    rw [List.length_map, Numerals.length_printHex]
  have read := Numerals.hexFrom_printHex small 0
  rw [Nat.zero_mul, Nat.zero_add] at read
  rw [readHex, List.take_left' size, List.drop_left' size,
    CodePoints.map_ofNat_code, read]
  rfl

section Strings

variable {printable : ℕ → Bool} {quote : ℕ}

/-- **An escaped character is read back.** -/
theorem readChar_escape (quotes : quote = code '\'' ∨ quote = code '"') {c : ℕ}
    (valid : c < 0x110000) (rest : Text) :
    readChar (escape printable quote c ++ rest) = some (c, rest) := by
  unfold escape
  split_ifs with special tab newline feed ascii wide byte short
  · rcases special with rfl | rfl
    · rcases quotes with rfl | rfl <;> rfl
    · rfl
  · rw [tab]
    rfl
  · rw [newline]
    rfl
  · rw [feed]
    rfl
  · exact if_neg (not_or.mp special).2
  · exact if_neg (not_or.mp special).2
  · exact readHex_printHex (Nat.lt_succ_of_le byte) rest
  · exact readHex_printHex (Nat.lt_succ_of_le short) rest
  · exact readHex_printHex (Nat.lt_trans valid (by decide)) rest

/-- No escaped character begins with the quote. -/
theorem escape_begins (printable : ℕ → Bool) (quotes : quote = code '\'' ∨ quote = code '"')
    (c : ℕ) : ∃ d rest, escape printable quote c = d :: rest ∧ d ≠ quote := by
  have slash : code '\\' ≠ quote := by rcases quotes with rfl | rfl <;> decide
  unfold escape
  split_ifs with special tab newline feed ascii wide byte short
  · exact ⟨_, _, rfl, slash⟩
  · exact ⟨_, _, rfl, slash⟩
  · exact ⟨_, _, rfl, slash⟩
  · exact ⟨_, _, rfl, slash⟩
  · exact ⟨_, _, rfl, (not_or.mp special).1⟩
  · exact ⟨_, _, rfl, (not_or.mp special).1⟩
  · exact ⟨_, _, rfl, slash⟩
  · exact ⟨_, _, rfl, slash⟩
  · exact ⟨_, _, rfl, slash⟩

/-- The characters of a string are told up to its closing quote. -/
theorem flatMap_escape_inj (quotes : quote = code '\'' ∨ quote = code '"') {first second : Text}
    (valid : ∀ c ∈ first, c < 0x110000) (valid' : ∀ c ∈ second, c < 0x110000) {rest tail : Text}
    (same : first.flatMap (escape printable quote) ++ quote :: rest
      = second.flatMap (escape printable quote) ++ quote :: tail) :
    first = second ∧ rest = tail := by
  induction first generalizing second with
  | nil =>
      cases second with
      | nil => exact ⟨rfl, (List.cons.inj same).2⟩
      | cons d second =>
          obtain ⟨e, more, begins, other⟩ := escape_begins printable quotes d
          rw [List.flatMap_cons, begins] at same
          exact absurd (List.cons.inj same).1.symm other
  | cons c first ih =>
      cases second with
      | nil =>
          obtain ⟨e, more, begins, other⟩ := escape_begins printable quotes c
          rw [List.flatMap_cons, begins] at same
          exact absurd (List.cons.inj same).1 other
      | cons d second =>
          obtain ⟨here, later⟩ := List.forall_mem_cons.mp valid
          obtain ⟨here', later'⟩ := List.forall_mem_cons.mp valid'
          rw [List.flatMap_cons, List.flatMap_cons, List.append_assoc, List.append_assoc] at same
          have read := congrArg readChar same
          rw [readChar_escape quotes here, readChar_escape quotes here'] at read
          obtain ⟨rfl, after⟩ := Prod.mk.inj (Option.some.inj read)
          obtain ⟨rfl, ends⟩ := ih later later' after
          exact ⟨rfl, ends⟩

theorem quoteOf_cases (content : Text) :
    quoteOf content = code '\'' ∨ quoteOf content = code '"' := by
  unfold quoteOf
  split
  · exact Or.inr rfl
  · exact Or.inl rfl

/-- **A quoted string is told from what follows it.** -/
theorem quoted_inj {first second : Text} (valid : ∀ c ∈ first, c < 0x110000)
    (valid' : ∀ c ∈ second, c < 0x110000) {rest tail : Text}
    (same : quoted printable first ++ rest = quoted printable second ++ tail) :
    first = second ∧ rest = tail := by
  simp only [quoted, List.cons_append, List.append_assoc, List.nil_append] at same
  obtain ⟨quotes, inner⟩ := List.cons.inj same
  rw [← quotes] at inner
  exact flatMap_escape_inj (quoteOf_cases first) valid valid' inner

theorem reprBytes_inj {first second : List UInt8} {rest tail : Text}
    (same : reprBytes first ++ rest = reprBytes second ++ tail) :
    first = second ∧ rest = tail := by
  have small : ∀ raw : List UInt8, ∀ c ∈ raw.map UInt8.toNat, c < 0x110000 := by
    intro raw c member
    obtain ⟨b, -, rfl⟩ := List.mem_map.mp member
    exact Nat.lt_trans b.toNat_lt (by decide)
  obtain ⟨bytes, ends⟩ := quoted_inj (small first) (small second) (List.cons.inj same).2
  exact ⟨List.map_injective_iff.mpr (fun _ _ => UInt8.toNat_inj.mp) bytes, ends⟩

end Strings

/-! ## Words and numbers -/

/-- The characters that stand between values or close them. -/
def delimiters : List ℕ := [code ',', code ')', code ']', code '}', code ':']

/-- A character of a decimal integer. -/
def isNumeral (c : ℕ) : Bool := Json.isDigit c || c = code '-'

theorem digit_cases {c : ℕ} (digit : Json.isDigit c = true) :
    c ∈ [48, 49, 50, 51, 52, 53, 54, 55, 56, 57] := by
  have each : ∀ c < 58, Json.isDigit c = true → c ∈ [48, 49, 50, 51, 52, 53, 54, 55, 56, 57] := by
    decide
  exact each c (Nat.lt_succ_of_le (Json.isDigit_iff.mp digit).2) digit

/-- The value of a word or of an integer; a float is none of these. -/
def readScalar (input : Text) : Option Value :=
  if input.all isNumeral then (Numerals.parse input.length (input.map Char.ofNat)).map .int
  else if input = text "None" then some .none
  else if input = text "True" then some (.bool true)
  else if input = text "False" then some (.bool false)
  else none

theorem isNumeral_of_mem_print {n : ℤ} {c : ℕ} (member : c ∈ (Numerals.print n).map code) :
    isNumeral c = true := by
  obtain ⟨char, inside, rfl⟩ := List.mem_map.mp member
  have digits : ∀ k : ℕ, char ∈ Nat.toDigits 10 k → isNumeral (code char) = true := by
    intro k digit
    rw [isNumeral, (Json.digits_toDigits k).2.1 _ (List.mem_map_of_mem digit), Bool.true_or]
  cases n with
  | ofNat n => exact digits n inside
  | negSucc n =>
      rcases List.mem_cons.mp inside with rfl | digit
      · rfl
      · exact digits (n + 1) digit

theorem readScalar_int (n : ℤ) : readScalar ((Numerals.print n).map code) = some (.int n) := by
  have numerals : ((Numerals.print n).map code).all isNumeral = true :=
    List.all_eq_true.mpr fun c member => isNumeral_of_mem_print member
  have short : (Nat.toDigits 10 n.natAbs).length ≤ ((Numerals.print n).map code).length := by
    rw [List.length_map]
    cases n with
    | ofNat n => exact Nat.le_refl _
    | negSucc n => exact Nat.le_succ _
  rw [readScalar, if_pos numerals, CodePoints.map_ofNat_code,
    Numerals.parse_print short]
  rfl

/-- In a finite literal stands a point or the letter of the exponent. -/
theorem IsFinite.marked {repr : Text} (finite : IsFinite repr) :
    code '.' ∈ repr ∨ code 'e' ∈ repr := by
  obtain ⟨sign, whole, fraction, exponent, rfl, literal⟩ := finite
  rcases literal.marked with marked | marked
  · rcases literal.fractional with none_ | ⟨digits, -, rfl⟩
    · exact absurd none_ marked
    · exact Or.inl (by simp)
  · rcases literal.exponential with none_ | ⟨sign, digits, -, -, rfl⟩
    · exact absurd none_ marked
    · exact Or.inr (by simp)

/-- A float begins with a digit, a sign, or a small letter. -/
theorem Floating.begins (x : Floating) : ∃ c rest, x.repr = c :: rest
    ∧ c ∈ [45, 48, 49, 50, 51, 52, 53, 54, 55, 56, 57, 105, 110] := by
  rcases x.shape with ⟨sign, whole, fraction, exponent, same, literal⟩ | infinite
  · rw [same]
    obtain ⟨c, rest, rfl, digit⟩ := literal.digits.begins
    rcases literal.signed with rfl | rfl
    · refine ⟨c, _, rfl, ?_⟩
      exact List.mem_cons_of_mem _ (List.mem_append_left [105, 110] (digit_cases digit))
    · exact ⟨code '-', _, rfl, by decide⟩
  · simp only [infinities, List.mem_cons, List.not_mem_nil, or_false] at infinite
    rcases infinite with same | same | same
    all_goals rw [same]
    · exact ⟨code 'n', _, rfl, by decide⟩
    · exact ⟨code 'i', _, rfl, by decide⟩
    · exact ⟨code '-', _, rfl, by decide⟩

theorem readScalar_float (x : Floating) : readScalar x.repr = none := by
  have other : x.repr.all isNumeral = false := by
    rw [List.all_eq_false]
    rcases x.shape with finite | infinite
    · rcases finite.marked with point | letter
      · exact ⟨_, point, by decide⟩
      · exact ⟨_, letter, by decide⟩
    · have letters : ∀ repr ∈ infinities, code 'n' ∈ repr := by decide
      exact ⟨_, letters _ infinite, by decide⟩
  have noWord : ∀ word ∈ [text "None", text "True", text "False"], x.repr ≠ word := by
    obtain ⟨c, rest, same, among⟩ := x.begins
    intro word member equal
    have capital : ∀ word ∈ [text "None", text "True", text "False"], ∀ c ∈ word.head?,
        c ∉ [45, 48, 49, 50, 51, 52, 53, 54, 55, 56, 57, 105, 110] := by decide
    refine capital word member c ?_ among
    rw [← equal, same]
    rfl
  simp only [List.mem_cons, List.not_mem_nil, or_false, forall_eq_or_imp, forall_eq] at noWord
  rw [readScalar, other, if_neg Bool.false_ne_true, if_neg noWord.1, if_neg noWord.2.1,
    if_neg noWord.2.2]

/-! ## The kinds of values -/

inductive Group where
  | scalar
  | str
  | bytes
  | tuple
  | list
  | dict
  deriving DecidableEq

def Value.group : Value → Group
  | .str _ => .str
  | .bytes _ => .bytes
  | .tuple _ => .tuple
  | .list _ => .list
  | .dict _ => .dict
  | _ => .scalar

/-- The kind of value whose `repr` begins with the character. -/
def groupOf (c : ℕ) : Group :=
  if c = code '\'' ∨ c = code '"' then .str
  else if c = code 'b' then .bytes
  else if c = code '(' then .tuple
  else if c = code '[' then .list
  else if c = code '\x7b' then .dict
  else .scalar

section Values

variable {printable : ℕ → Bool}

theorem print_begins (n : ℤ) : ∃ c rest, (Numerals.print n).map code = c :: rest
    ∧ isNumeral c = true := by
  cases printed : (Numerals.print n).map code with
  | nil =>
      have read := readScalar_int n
      rw [printed] at read
      cases read
  | cons c rest =>
      have first : c ∈ (Numerals.print n).map code := by
        rw [printed]
        exact List.mem_cons_self
      exact ⟨c, rest, rfl, isNumeral_of_mem_print first⟩

/-- **The first character of a `repr` tells its kind**, and is no delimiter. -/
theorem repr_begins (printable : ℕ → Bool) (value : Value) : ∃ c rest,
    repr printable value = c :: rest ∧ groupOf c = value.group ∧ c ∉ delimiters := by
  have numeric : ∀ c ∈ [45, 48, 49, 50, 51, 52, 53, 54, 55, 56, 57, 105, 110],
      groupOf c = .scalar ∧ c ∉ delimiters := by decide
  cases value with
  | none => exact ⟨code 'N', _, rfl, rfl, by decide⟩
  | bool b =>
      cases b
      · exact ⟨code 'F', _, rfl, rfl, by decide⟩
      · exact ⟨code 'T', _, rfl, rfl, by decide⟩
  | int n =>
      obtain ⟨c, rest, begins, numeral⟩ := print_begins n
      refine ⟨c, rest, begins, numeric c ?_⟩
      rw [isNumeral, Bool.or_eq_true, decide_eq_true_iff] at numeral
      rcases numeral with digit | rfl
      · exact List.mem_cons_of_mem _ (List.mem_append_left [105, 110] (digit_cases digit))
      · exact List.mem_cons_self
  | float x =>
      obtain ⟨c, rest, begins, among⟩ := x.begins
      exact ⟨c, rest, begins, numeric c among⟩
  | str content =>
      refine ⟨quoteOf content.points, _, rfl, ?_⟩
      rcases quoteOf_cases content.points with quote | quote
      · rw [quote]
        exact ⟨rfl, by decide⟩
      · rw [quote]
        exact ⟨rfl, by decide⟩
  | bytes raw => exact ⟨code 'b', _, rfl, rfl, by decide⟩
  | tuple items => exact ⟨code '(', _, by rw [repr], rfl, by decide⟩
  | list items => exact ⟨code '[', _, by rw [repr], rfl, by decide⟩
  | dict items => exact ⟨code '\x7b', _, by rw [repr], rfl, by decide⟩

/-- What may follow a `repr`: a delimiter, or the end. -/
def Ends (rest : Text) : Prop := ∀ c ∈ rest.head?, c ∈ delimiters

theorem ends_cons {c : ℕ} (delimiter : c ∈ delimiters) (rest : Text) : Ends (c :: rest) := by
  intro d first
  rw [← Option.some.inj first]
  exact delimiter

theorem group_eq {v w : Value} {rest tail : Text}
    (same : repr printable v ++ rest = repr printable w ++ tail) : v.group = w.group := by
  obtain ⟨c, more, begins, kind, -⟩ := repr_begins printable v
  obtain ⟨d, more', begins', kind', -⟩ := repr_begins printable w
  rw [begins, begins'] at same
  rw [← kind, ← kind', (List.cons.inj same).1]

/-! ### Scalars -/

/-- A scalar is a float, or read off its `repr`. -/
theorem scalar_cases (printable : ℕ → Bool) {v : Value} (scalar : v.group = .scalar) :
    (∃ x, v = .float x) ∨ readScalar (repr printable v) = some v := by
  cases v with
  | none => exact Or.inr rfl
  | bool b => cases b <;> exact Or.inr rfl
  | int n => exact Or.inr (readScalar_int n)
  | float x => exact Or.inl ⟨x, rfl⟩
  | _ => cases scalar

theorem scalar_inj {v w : Value} (scalar : v.group = .scalar) (scalar' : w.group = .scalar)
    (same : repr printable v = repr printable w) : v = w := by
  have read := congrArg readScalar same
  rcases scalar_cases printable scalar with ⟨x, rfl⟩ | known
  · rcases scalar_cases printable scalar' with ⟨y, rfl⟩ | known'
    · cases x
      cases y
      cases same
      rfl
    · rw [known', repr, readScalar_float] at read
      cases read
  · rcases scalar_cases printable scalar' with ⟨y, rfl⟩ | known'
    · rw [known, repr, readScalar_float] at read
      cases read
    · rw [known, known'] at read
      exact Option.some.inj read

/-- No delimiter stands in a word or a number. -/
theorem scalar_plain {v : Value} (scalar : v.group = .scalar) :
    ∀ c ∈ repr printable v, c ∉ delimiters := by
  have digits : ∀ c ∈ [48, 49, 50, 51, 52, 53, 54, 55, 56, 57], c ∉ delimiters := by decide
  cases v with
  | none => exact (by decide : ∀ c ∈ text "None", c ∉ delimiters)
  | bool b =>
      cases b
      · exact (by decide : ∀ c ∈ text "False", c ∉ delimiters)
      · exact (by decide : ∀ c ∈ text "True", c ∉ delimiters)
  | int n =>
      intro c member
      have numeral := isNumeral_of_mem_print member
      rw [isNumeral, Bool.or_eq_true, decide_eq_true_iff] at numeral
      rcases numeral with digit | rfl
      · exact digits c (digit_cases digit)
      · decide
  | float x =>
      rcases x.shape with ⟨sign, whole, fraction, exponent, same, literal⟩ | infinite
      · rw [repr, same]
        exact literal.forall_mem (fun c digit => digits c (digit_cases digit)) (by decide)
      · have words : ∀ repr ∈ infinities, ∀ c ∈ repr, c ∉ delimiters := by decide
        exact words x.repr infinite
  | _ => cases scalar

theorem takeWhile_plain {plain rest : Text} (each : ∀ c ∈ plain, c ∉ delimiters)
    (ends : Ends rest) : (plain ++ rest).takeWhile (fun c => c ∉ delimiters) = plain := by
  rw [List.takeWhile_append_of_pos fun c member => decide_eq_true (each c member)]
  cases rest with
  | nil => simp
  | cons c rest =>
      rw [List.takeWhile_cons_of_neg (by simp [ends c rfl]), List.append_nil]

/-- A scalar is the run up to the next delimiter. -/
theorem scalar_append_inj {v w : Value} (scalar : v.group = .scalar) (scalar' : w.group = .scalar)
    {rest tail : Text} (ends : Ends rest) (ends' : Ends tail)
    (same : repr printable v ++ rest = repr printable w ++ tail) : v = w ∧ rest = tail := by
  have runs := congrArg (List.takeWhile fun c => c ∉ delimiters) same
  rw [takeWhile_plain (scalar_plain scalar) ends, takeWhile_plain (scalar_plain scalar') ends']
    at runs
  rw [runs] at same
  exact ⟨scalar_inj scalar scalar' runs, List.append_cancel_left same⟩

/-! ### Containers -/

/-- What closes a container: a delimiter, after which no further item stands. -/
def Closing (rest : Text) : Prop :=
  ∃ c more, rest = c :: more ∧ c ∈ delimiters ∧ ∀ later, rest ≠ code ',' :: code ' ' :: later

theorem Closing.ends {rest : Text} (closing : Closing rest) : Ends rest := by
  obtain ⟨c, more, rfl, delimiter, -⟩ := closing
  exact ends_cons delimiter more

theorem closing_bracket {c : ℕ} (bracket : c ∈ [code ')', code ']', code '\x7d']) (rest : Text) :
    Closing (c :: rest) := by
  have others : ∀ c ∈ [code ')', code ']', code '\x7d'], c ∈ delimiters ∧ c ≠ code ',' := by decide
  refine ⟨c, rest, rfl, (others c bracket).1, fun later same => ?_⟩
  exact (others c bracket).2 (List.cons.inj same).1

/-- The end of a tuple, of which a single item has a comma. -/
theorem closing_tuple (items : List Value) (rest : Text) :
    Closing ((if items.length = 1 then [code ',', code ')'] else [code ')']) ++ rest) := by
  split
  · refine ⟨code ',', _, rfl, by decide, fun later same => ?_⟩
    exact absurd (List.cons.inj (List.cons.inj same).2).1 (by decide)
  · exact closing_bracket (by decide) rest

theorem ends_reprItems {items : List Value} {rest : Text} (closing : Closing rest) :
    Ends (reprItems printable items ++ rest) := by
  cases items with
  | nil => exact closing.ends
  | cons item items => exact ends_cons (by decide) _

theorem ends_reprPairs {items : List (Value × Value)} {rest : Text} (closing : Closing rest) :
    Ends (reprPairs printable items ++ rest) := by
  cases items with
  | nil => exact closing.ends
  | cons item items => exact ends_cons (by decide) _

/-- A `repr` does not begin like what closes a container. -/
theorem repr_ne_closing (value : Value) {rest tail : Text} (closing : Closing rest) :
    repr printable value ++ tail ≠ rest := by
  obtain ⟨c, more, begins, -, plain⟩ := repr_begins printable value
  obtain ⟨d, after, rfl, delimiter, -⟩ := closing
  intro same
  rw [begins] at same
  rw [(List.cons.inj same).1] at plain
  exact plain delimiter

/-- The first item of a container has no comma before it; with one, the texts agree as well. -/
theorem reprItems_of_drop {items others : List Value} {rest tail : Text} (closing : Closing rest)
    (closing' : Closing tail)
    (same : (reprItems printable items).drop 2 ++ rest
      = (reprItems printable others).drop 2 ++ tail) :
    reprItems printable items ++ rest = reprItems printable others ++ tail := by
  cases items with
  | nil =>
      cases others with
      | nil => exact same
      | cons other others =>
          rw [reprItems] at same
          exact absurd ((List.append_assoc ..).symm.trans same.symm) (repr_ne_closing other closing)
  | cons item items =>
      cases others with
      | nil =>
          rw [reprItems] at same
          exact absurd ((List.append_assoc ..).symm.trans same) (repr_ne_closing item closing')
      | cons other others =>
          simp only [reprItems, List.drop_succ_cons, List.drop_zero] at same ⊢
          simp only [List.cons_append, same]

theorem reprPairs_of_drop {items others : List (Value × Value)} {rest tail : Text}
    (closing : Closing rest) (closing' : Closing tail)
    (same : (reprPairs printable items).drop 2 ++ rest
      = (reprPairs printable others).drop 2 ++ tail) :
    reprPairs printable items ++ rest = reprPairs printable others ++ tail := by
  cases items with
  | nil =>
      cases others with
      | nil => exact same
      | cons other others =>
          obtain ⟨key, value⟩ := other
          rw [reprPairs] at same
          exact absurd ((List.append_assoc ..).symm.trans same.symm) (repr_ne_closing key closing)
  | cons item items =>
      obtain ⟨key, value⟩ := item
      cases others with
      | nil =>
          rw [reprPairs] at same
          exact absurd ((List.append_assoc ..).symm.trans same) (repr_ne_closing key closing')
      | cons other others =>
          obtain ⟨key', value'⟩ := other
          simp only [reprPairs, List.drop_succ_cons, List.drop_zero] at same ⊢
          simp only [List.cons_append, same]

/-! ### Values -/

mutual
/-- **A `repr` tells its value**, and where it ends. -/
theorem repr_inj : ∀ (v w : Value) {rest tail : Text}, Ends rest → Ends tail →
    repr printable v ++ rest = repr printable w ++ tail → v = w ∧ rest = tail
  | .none, w, _, _, ends, ends', same | .bool _, w, _, _, ends, ends', same
  | .int _, w, _, _, ends, ends', same | .float _, w, _, _, ends, ends', same =>
      scalar_append_inj rfl (group_eq same).symm ends ends' same
  | .str content, w, _, _, ends, ends', same => by
      have kind := group_eq same
      cases w with
      | str other =>
          obtain ⟨points, after⟩ := quoted_inj content.valid other.valid same
          cases content
          cases other
          cases points
          exact ⟨rfl, after⟩
      | _ => cases kind
  | .bytes raw, w, _, _, ends, ends', same => by
      have kind := group_eq same
      cases w with
      | bytes other =>
          obtain ⟨rfl, after⟩ := reprBytes_inj same
          exact ⟨rfl, after⟩
      | _ => cases kind
  | .tuple items, w, rest, tail, ends, ends', same => by
      have kind := group_eq same
      cases w with
      | tuple others =>
          rw [repr, repr, List.cons_append, List.cons_append, List.append_assoc,
            List.append_assoc] at same
          have closing := closing_tuple items rest
          have closing' := closing_tuple others tail
          obtain ⟨rfl, after⟩ := reprItems_inj items others closing closing'
            (reprItems_of_drop closing closing' (List.cons.inj same).2)
          exact ⟨rfl, List.append_cancel_left after⟩
      | _ => cases kind
  | .list items, w, rest, tail, ends, ends', same => by
      have kind := group_eq same
      cases w with
      | list others =>
          rw [repr, repr, List.cons_append, List.cons_append, List.append_assoc,
            List.append_assoc] at same
          have closing : ∀ rest, Closing (code ']' :: rest) := closing_bracket (by decide)
          obtain ⟨rfl, after⟩ := reprItems_inj items others (closing rest) (closing tail)
            (reprItems_of_drop (closing rest) (closing tail) (List.cons.inj same).2)
          exact ⟨rfl, (List.cons.inj after).2⟩
      | _ => cases kind
  | .dict items, w, rest, tail, ends, ends', same => by
      have kind := group_eq same
      cases w with
      | dict others =>
          rw [repr, repr, List.cons_append, List.cons_append, List.append_assoc,
            List.append_assoc] at same
          have closing : ∀ rest, Closing (code '\x7d' :: rest) := closing_bracket (by decide)
          obtain ⟨rfl, after⟩ := reprPairs_inj items others (closing rest) (closing tail)
            (reprPairs_of_drop (closing rest) (closing tail) (List.cons.inj same).2)
          exact ⟨rfl, (List.cons.inj after).2⟩
      | _ => cases kind

theorem reprItems_inj : ∀ (items others : List Value) {rest tail : Text}, Closing rest →
    Closing tail → reprItems printable items ++ rest = reprItems printable others ++ tail →
      items = others ∧ rest = tail
  | [], [], _, _, _, _, same => ⟨rfl, same⟩
  | [], _ :: _, _, _, closing, _, same => by
      obtain ⟨-, -, -, -, noItem⟩ := closing
      exact absurd same (noItem _)
  | _ :: _, [], _, _, _, closing', same => by
      obtain ⟨-, -, -, -, noItem⟩ := closing'
      exact absurd same.symm (noItem _)
  | item :: items, other :: others, rest, tail, closing, closing', same => by
      simp only [reprItems, List.cons_append, List.append_assoc, List.cons.injEq, true_and] at same
      obtain ⟨rfl, after⟩ := repr_inj item other (ends_reprItems closing) (ends_reprItems closing')
        same
      obtain ⟨rfl, last⟩ := reprItems_inj items others closing closing' after
      exact ⟨rfl, last⟩

theorem reprPairs_inj : ∀ (items others : List (Value × Value)) {rest tail : Text}, Closing rest →
    Closing tail → reprPairs printable items ++ rest = reprPairs printable others ++ tail →
      items = others ∧ rest = tail
  | [], [], _, _, _, _, same => ⟨rfl, same⟩
  | [], (_, _) :: _, _, _, closing, _, same => by
      obtain ⟨-, -, -, -, noItem⟩ := closing
      exact absurd same (noItem _)
  | (_, _) :: _, [], _, _, _, closing', same => by
      obtain ⟨-, -, -, -, noItem⟩ := closing'
      exact absurd same.symm (noItem _)
  | (key, value) :: items, (key', value') :: others, rest, tail, closing, closing', same => by
      simp only [reprPairs, List.cons_append, List.append_assoc, List.cons.injEq, true_and] at same
      obtain ⟨rfl, colon⟩ := repr_inj key key' (ends_cons (by decide) _) (ends_cons (by decide) _)
        same
      simp only [List.cons.injEq, true_and] at colon
      obtain ⟨rfl, after⟩ := repr_inj value value' (ends_reprPairs closing)
        (ends_reprPairs closing') colon
      obtain ⟨rfl, last⟩ := reprPairs_inj items others closing closing' after
      exact ⟨rfl, last⟩
end

/-! ### Characters -/

section Characters

variable {holds : ℕ → Prop}

theorem forall_mem_scalar (ascii : ∀ c < 0x80, holds c) {v : Value} (scalar : v.group = .scalar) :
    ∀ c ∈ repr printable v, holds c := by
  have words : ∀ word ∈ text "None" :: text "True" :: text "False" :: infinities,
      Json.Ascii word := by decide
  intro c member
  apply ascii
  cases v with
  | none => exact words (text "None") (by decide) c member
  | bool b =>
      cases b
      · exact words (text "False") (by decide) c member
      · exact words (text "True") (by decide) c member
  | int n =>
      obtain ⟨char, inside, rfl⟩ := List.mem_map.mp member
      exact Json.ascii_of_mem_print inside
  | float x =>
      rcases x.shape with ⟨sign, whole, fraction, exponent, same, literal⟩ | infinite
      · rw [repr, same] at member
        exact literal.ascii c member
      · exact words x.repr (List.mem_append_right [_, _, _] infinite) c member
  | _ => cases scalar

theorem forall_mem_container (ascii : ∀ c < 0x80, holds c) {bracket : ℕ} {items closing : Text}
    (begins : bracket < 0x80) (closes : Json.Ascii closing) (each : ∀ c ∈ items, holds c) :
    ∀ c ∈ bracket :: (items.drop 2 ++ closing), holds c := by
  intro c member
  rcases List.mem_cons.mp member with rfl | member
  · exact ascii c begins
  · rcases List.mem_append.mp member with inside | closed
    · exact each c (List.mem_of_mem_drop inside)
    · exact ascii c (closes c closed)

mutual
/-- A `repr` is made of ASCII and of characters that are printable. -/
theorem forall_mem_repr (ascii : ∀ c < 0x80, holds c)
    (shown : ∀ c, printable c = true → holds c) : ∀ v : Value, ∀ c ∈ repr printable v, holds c
  | .none | .bool _ | .int _ | .float _ => forall_mem_scalar ascii rfl
  | .str content => forall_mem_quoted ascii shown content.points
  | .bytes raw => fun c member => ascii c (reprBytes_ascii raw c member)
  | .tuple items => by
      have closes : Json.Ascii (if items.length = 1 then [code ',', code ')'] else [code ')']) := by
        split <;> decide
      rw [repr]
      exact forall_mem_container ascii (by decide) closes (forall_mem_reprItems ascii shown items)
  | .list items => by
      have closes : Json.Ascii [code ']'] := by decide
      rw [repr]
      exact forall_mem_container ascii (by decide) closes (forall_mem_reprItems ascii shown items)
  | .dict items => by
      have closes : Json.Ascii [code '\x7d'] := by decide
      rw [repr]
      exact forall_mem_container ascii (by decide) closes (forall_mem_reprPairs ascii shown items)

theorem forall_mem_reprItems (ascii : ∀ c < 0x80, holds c)
    (shown : ∀ c, printable c = true → holds c) :
    ∀ items : List Value, ∀ c ∈ reprItems printable items, holds c
  | [] => fun _ member => nomatch member
  | item :: rest => by
      have marks : code ',' < 0x80 ∧ code ' ' < 0x80 := by decide
      intro c member
      simp only [reprItems, List.mem_cons, List.mem_append] at member
      rcases member with rfl | rfl | inside | later
      · exact ascii _ marks.1
      · exact ascii _ marks.2
      · exact forall_mem_repr ascii shown item c inside
      · exact forall_mem_reprItems ascii shown rest c later

theorem forall_mem_reprPairs (ascii : ∀ c < 0x80, holds c)
    (shown : ∀ c, printable c = true → holds c) :
    ∀ items : List (Value × Value), ∀ c ∈ reprPairs printable items, holds c
  | [] => fun _ member => nomatch member
  | (key, value) :: rest => by
      have marks : code ',' < 0x80 ∧ code ' ' < 0x80 ∧ code ':' < 0x80 := by decide
      intro c member
      simp only [reprPairs, List.mem_cons, List.mem_append] at member
      rcases member with rfl | rfl | inside | rfl | rfl | inside | later
      · exact ascii _ marks.1
      · exact ascii _ marks.2.1
      · exact forall_mem_repr ascii shown key c inside
      · exact ascii _ marks.2.2
      · exact ascii _ marks.2.1
      · exact forall_mem_repr ascii shown value c inside
      · exact forall_mem_reprPairs ascii shown rest c later
end

end Characters

end Values

/-! ## What `repr` raises -/

section Raising

variable (limit : ℕ)

mutual
/-- What `repr` raises of a value, if containers are nested in it more than `room` deep or an
integer has more than `limit` digits: the first of these it comes to. -/
def refusal (room : ℕ) : Value → Option Refusal
  | .int n => if (Json.writeInt limit n).isSome then none else some .valueError
  | .tuple items | .list items => match room with
      | 0 => some .recursionError
      | room + 1 => refusalItems room items
  | .dict items => match room with
      | 0 => some .recursionError
      | room + 1 => refusalPairs room items
  | _ => none

def refusalItems (room : ℕ) : List Value → Option Refusal
  | [] => none
  | item :: rest => (refusal room item).or (refusalItems room rest)

def refusalPairs (room : ℕ) : List (Value × Value) → Option Refusal
  | [] => none
  | (key, value) :: rest =>
      ((refusal room key).or (refusal room value)).or (refusalPairs room rest)
end

/-- `repr`, or what it raises. -/
def tryRepr (room : ℕ) (printable : ℕ → Bool) (value : Value) : Except Refusal Text :=
  match refusal limit room value with
  | some raised => .error raised
  | none => .ok (repr printable value)

variable {limit}

theorem tryRepr_eq_ok {room : ℕ} {printable : ℕ → Bool} {value : Value} {written : Text}
    (writes : tryRepr limit room printable value = .ok written) :
    repr printable value = written := by
  unfold tryRepr at writes
  split at writes
  · cases writes
  · exact Except.ok.inj writes

end Raising

end Python
