import PyCommon.Lib.Json

/-!
# Scalars are read back

What the writer writes for a value that is no container is read as that value again, wherever a
comma or a closing bracket follows (`ReadsAs`): the literals that are words, an integer within
the limit of digits, and a string, whose escaped pairs are joined. For the text of a number the
parts that the reader cuts it into are given one by one.
-/

set_option autoImplicit false

namespace Json

open CodePoints (Text code text)

/-! ## Runs of digits -/

section Digits

variable {digits rest : Text}

/-- The text does not go on with a digit. -/
def NoDigit (rest : Text) : Prop := ∀ c ∈ rest.head?, isDigit c = false

theorem takeWhile_digits (each : ∀ c ∈ digits, isDigit c = true) (ends : NoDigit rest) :
    (digits ++ rest).takeWhile isDigit = digits := by
  rw [List.takeWhile_append_of_pos each]
  cases rest with
  | nil => simp
  | cons c rest =>
      have other : ¬ isDigit c = true := by simp [ends c rfl]
      rw [List.takeWhile_cons_of_neg other, List.append_nil]

theorem dropWhile_digits (each : ∀ c ∈ digits, isDigit c = true) (ends : NoDigit rest) :
    (digits ++ rest).dropWhile isDigit = rest := by
  rw [List.dropWhile_append_of_pos each]
  cases rest with
  | nil => rfl
  | cons c rest =>
      have other : ¬ isDigit c = true := by simp [ends c rfl]
      exact List.dropWhile_cons_of_neg other

/-- The digits before the point, the first of which is no zero that others follow. -/
theorem wholePart_digits (nonempty : digits ≠ []) (each : ∀ c ∈ digits, isDigit c = true)
    (leading : digits.head? = some (code '0') → digits.length = 1) (ends : NoDigit rest) :
    wholePart (digits ++ rest) = some (digits, rest) := by
  cases digits with
  | nil => exact absurd rfl nonempty
  | cons c digits =>
      obtain ⟨first, later⟩ := List.forall_mem_cons.mp each
      rw [List.cons_append, wholePart]
      by_cases zero : c = code '0'
      · have alone := leading (congrArg some zero)
        rw [List.length_cons, Nat.add_eq_right, List.length_eq_zero_iff] at alone
        rw [if_pos zero, alone]
        rfl
      · rw [if_neg zero, if_pos first, takeWhile_digits later ends, dropWhile_digits later ends]

theorem fractionPart_absent (ends : rest.head? ≠ some (code '.')) :
    fractionPart rest = ([], rest) := by
  unfold fractionPart
  split
  · rename_i point digit later
    rw [if_neg]
    rintro ⟨rfl, _⟩
    exact ends rfl
  · rfl

theorem fractionPart_digits (nonempty : digits ≠ []) (each : ∀ c ∈ digits, isDigit c = true)
    (ends : NoDigit rest) :
    fractionPart (code '.' :: (digits ++ rest)) = (code '.' :: digits, rest) := by
  cases digits with
  | nil => exact absurd rfl nonempty
  | cons c digits =>
      obtain ⟨first, later⟩ := List.forall_mem_cons.mp each
      simp only [List.cons_append, fractionPart, first, and_self, if_true,
        takeWhile_digits later ends, dropWhile_digits later ends]

theorem exponentPart_absent (ends : ∀ c ∈ rest.head?, c ≠ code 'e' ∧ c ≠ code 'E') :
    exponentPart rest = ([], rest) := by
  unfold exponentPart
  split
  · rename_i letter sign later
    have other := ends letter rfl
    rw [if_neg]
    rintro (rfl | rfl)
    · exact other.1 rfl
    · exact other.2 rfl
  · rfl

theorem exponentPart_digits {sign : ℕ} (signed : sign = code '+' ∨ sign = code '-')
    (nonempty : digits ≠ []) (each : ∀ c ∈ digits, isDigit c = true) (ends : NoDigit rest) :
    exponentPart (code 'e' :: sign :: (digits ++ rest)) = (code 'e' :: sign :: digits, rest) := by
  have noDigit : isDigit sign = false := by
    rcases signed with rfl | rfl <;> rfl
  have begins : (digits ++ rest).head?.any isDigit = true := by
    cases digits with
    | nil => exact absurd rfl nonempty
    | cons c digits => exact each c List.mem_cons_self
  simp only [exponentPart, true_or, if_true, noDigit, Bool.false_eq_true, if_false, signed, begins,
    and_self, takeWhile_digits each ends, dropWhile_digits each ends]

end Digits

/-! ## What follows a value -/

/-- What may follow a value within a container, or the end. -/
def Delimited (rest : Text) : Prop :=
  ∀ c ∈ rest.head?, c = code ',' ∨ c = code ']' ∨ c = code '}'

theorem delimited_nil : Delimited [] := fun _ member => absurd member (by simp)

theorem Delimited.noDigit {rest : Text} (delimited : Delimited rest) : NoDigit rest := by
  intro c first
  rcases delimited c first with rfl | rfl | rfl <;> rfl

theorem Delimited.noPoint {rest : Text} (delimited : Delimited rest) :
    rest.head? ≠ some (code '.') := by
  intro first
  rcases delimited _ first with same | same | same <;> exact absurd same (by decide)

theorem Delimited.noLetter {rest : Text} (delimited : Delimited rest) :
    ∀ c ∈ rest.head?, c ≠ code 'e' ∧ c ≠ code 'E' := by
  intro c first
  rcases delimited c first with rfl | rfl | rfl <;> decide

section Reader

variable {float : Text → Text} {limit : ℕ}

/-! ## Numbers -/

theorem readNumber_of_parts {input unsigned afterWhole afterFraction rest sign whole fraction
      exponent : Text} {value : Value} (signs : signPart input = (sign, unsigned))
    (digits : wholePart unsigned = some (whole, afterWhole))
    (fractional : fractionPart afterWhole = (fraction, afterFraction))
    (exponential : exponentPart afterFraction = (exponent, rest))
    (valued : numberValue float limit sign whole fraction exponent = .ok value) :
    readNumber float limit input = .ok (value, rest) := by
  simp only [readNumber, signs, digits, fractional, exponential, valued, bind, Except.bind, pure,
    Except.pure]

/-- No word begins with a digit, with or without a sign. -/
theorem word_begins : ∀ word ∈ words, ∃ first second later, word.1 = first :: second :: later
    ∧ isDigit first = false ∧ (first = code '-' → isDigit second = false) := by
  intro word member
  simp only [words, List.mem_cons, List.not_mem_nil, or_false] at member
  rcases member with rfl | rfl | rfl | rfl | rfl | rfl
  all_goals exact ⟨_, _, _, rfl, rfl, by decide⟩

/-- The text of a number is no string and no word. -/
theorem readScalar_number {sign tail : Text} {c : ℕ} (signed : sign = [] ∨ sign = [code '-'])
    (digit : isDigit c = true) :
    readScalar float limit (sign ++ c :: tail) = readNumber float limit (sign ++ c :: tail) := by
  have bounds := isDigit_iff.mp digit
  have quote : (sign ++ c :: tail).head? ≠ some (code '"') := by
    rcases signed with rfl | rfl
    · intro same
      have value : c = 34 := Option.some.inj same
      omega
    · exact fun same => absurd (Option.some.inj same) (by decide)
  have word : words.find? (fun word => word.1.isPrefixOf (sign ++ c :: tail)) = none := by
    rw [List.find?_eq_none]
    intro word member begins
    obtain ⟨more, same⟩ := List.isPrefixOf_iff_prefix.mp begins
    obtain ⟨first, second, later, spelled, noDigit, noSecond⟩ := word_begins word member
    rw [spelled] at same
    rcases signed with rfl | rfl
    · obtain ⟨rfl, -⟩ := List.cons.inj same
      rw [digit] at noDigit
      cases noDigit
    · obtain ⟨sign, after⟩ := List.cons.inj same
      obtain ⟨rfl, -⟩ := List.cons.inj after
      rw [digit] at noSecond
      cases noSecond sign
  rw [readScalar, if_neg quote, word]

/-! ## Values that are no containers -/

/-- The first character of such a value: no blank and no bracket. -/
def Starts (c : ℕ) : Prop :=
  isBlank c = false ∧ c ≠ code '\x7b' ∧ c ≠ code '[' ∧ c ≠ code ']' ∧ c ≠ code '\x7d'

instance (c : ℕ) : Decidable (Starts c) := by
  unfold Starts
  infer_instance

variable (float limit) in
/-- The text is read as the value wherever a delimiter follows. -/
structure ReadsAs (written : Text) (value : Value) : Prop where
  begins : ∃ c rest, written = c :: rest ∧ Starts c
  reads : ∀ rest, Delimited rest → readScalar float limit (written ++ rest) = .ok (value, rest)

theorem ReadsAs.readValue {written : Text} {value : Value}
    (scalar : ReadsAs float limit written value) (room : ℕ) {rest : Text}
    (delimited : Delimited rest) :
    readValue float limit room (written ++ rest) = .ok (value, rest) := by
  have read := scalar.reads rest delimited
  obtain ⟨c, more, rfl, starts⟩ := scalar.begins
  rw [List.cons_append] at read ⊢
  cases room with
  | zero => rw [Json.readValue, if_neg (by simp [starts.2.1, starts.2.2.1]), read]
  | succ room => rw [Json.readValue, if_neg starts.2.1, if_neg starts.2.2.1, read]

theorem readsAs_word {word : Text × Value} (member : word ∈ words) :
    ReadsAs float limit word.1 word.2 := by
  simp only [words, List.mem_cons, List.not_mem_nil, or_false] at member
  rcases member with rfl | rfl | rfl | rfl | rfl | rfl
  all_goals exact ⟨⟨_, _, rfl, by decide⟩, fun rest _ => rfl⟩

theorem readsAs_string {content : Text} (valid : ∀ c ∈ content, c < 0x110000) :
    ReadsAs float limit (writeString content) (.str (CodePoints.joinPairs content)) := by
  refine ⟨⟨code '"', _, rfl, by decide⟩, fun rest _ => ?_⟩
  rw [writeString_append, readScalar, List.head?_cons, if_pos rfl, List.drop_one, List.tail_cons,
    readString_flatMap valid]
  rfl

/-- The digits of a number as the reader takes them. -/
theorem digits_toDigits (n : ℕ) : (Nat.toDigits 10 n).map code ≠ []
    ∧ (∀ c ∈ (Nat.toDigits 10 n).map code, isDigit c = true)
    ∧ (((Nat.toDigits 10 n).map code).head? = some (code '0') →
      ((Nat.toDigits 10 n).map code).length = 1) := by
  refine ⟨fun none_ => ?_, fun c member => ?_, fun zero => ?_⟩
  · exact Nat.toDigits_ne_nil (List.map_eq_nil_iff.mp none_)
  · obtain ⟨digit, inside, rfl⟩ := List.mem_map.mp member
    exact isDigit_code (Numerals.isDigit_of_mem_toDigits inside)
  · rw [List.head?_map, Option.map_eq_some_iff] at zero
    obtain ⟨digit, first, same⟩ := zero
    obtain rfl : digit = '0' := Char.toNat_inj.mp same
    rw [Numerals.eq_zero_of_head_toDigits first]
    rfl

theorem starts_digit {c : ℕ} (digit : isDigit c = true) : Starts c ∧ c ≠ code '-' := by
  have each : ∀ c < 58, isDigit c = true → Starts c ∧ c ≠ code '-' := by decide
  exact each c (Nat.lt_succ_of_le (isDigit_iff.mp digit).2) digit

/-- A number is read back from the parts that the reader cuts it into. -/
theorem readsAs_number {sign whole fraction exponent : Text} {value : Value}
    (signed : sign = [] ∨ sign = [code '-']) (nonempty : whole ≠ [])
    (each : ∀ c ∈ whole, isDigit c = true)
    (leading : whole.head? = some (code '0') → whole.length = 1)
    (fractional : ∀ rest, Delimited rest → NoDigit (fraction ++ (exponent ++ rest))
      ∧ fractionPart (fraction ++ (exponent ++ rest)) = (fraction, exponent ++ rest))
    (exponential : ∀ rest, Delimited rest → exponentPart (exponent ++ rest) = (exponent, rest))
    (valued : numberValue float limit sign whole fraction exponent = .ok value) :
    ReadsAs float limit (sign ++ (whole ++ (fraction ++ exponent))) value := by
  obtain ⟨c, digits, rfl⟩ := List.exists_cons_of_ne_nil nonempty
  have digit := each c List.mem_cons_self
  obtain ⟨starts, noSign⟩ := starts_digit digit
  refine ⟨?_, fun rest delimited => ?_⟩
  · rcases signed with rfl | rfl
    · exact ⟨c, _, rfl, starts⟩
    · exact ⟨code '-', _, rfl, by decide⟩
  · obtain ⟨ends, cut⟩ := fractional rest delimited
    have whole_ := wholePart_digits nonempty each leading ends
    have signs : signPart (sign ++ (c :: digits ++ (fraction ++ (exponent ++ rest))))
        = (sign, c :: digits ++ (fraction ++ (exponent ++ rest))) := by
      rcases signed with rfl | rfl
      · exact if_neg noSign
      · rfl
    simp only [List.append_assoc, List.cons_append] at signs whole_ ⊢
    rw [readScalar_number signed digit]
    exact readNumber_of_parts signs whole_ cut (exponential rest delimited) valued

/-- **An integer is read back** that is within the limit of digits. -/
theorem readsAs_int {n : ℤ} {written : Text} (writes : writeInt limit n = some written) :
    ReadsAs float limit written (.int n) := by
  unfold writeInt at writes
  split at writes
  · rename_i short
    obtain rfl := Option.some.inj writes
    have parsed := Numerals.parse_print short
    obtain ⟨sign, cut, signed⟩ : ∃ sign : Text,
        (Numerals.print n).map code = sign ++ (Nat.toDigits 10 n.natAbs).map code
          ∧ (sign = [] ∨ sign = [code '-']) := by
      cases n with
      | ofNat n => exact ⟨[], rfl, Or.inl rfl⟩
      | negSucc n => exact ⟨[code '-'], rfl, Or.inr rfl⟩
    obtain ⟨nonempty, each, leading⟩ := digits_toDigits n.natAbs
    have valued : numberValue float limit sign ((Nat.toDigits 10 n.natAbs).map code) [] []
        = .ok (.int n) := by
      rw [numberValue, if_pos ⟨rfl, rfl⟩, ← cut, CodePoints.map_ofNat_code, parsed]
    have number : ReadsAs float limit (sign ++ ((Nat.toDigits 10 n.natAbs).map code ++ ([] ++ [])))
        (.int n) :=
      readsAs_number signed nonempty each leading
        (fun rest delimited => ⟨delimited.noDigit, fractionPart_absent delimited.noPoint⟩)
        (fun rest delimited => exponentPart_absent delimited.noLetter) valued
    rwa [List.append_nil, List.append_nil, ← cut] at number
  · cases writes

end Reader

end Json
