import PyCommon.Persistence.Pagination

/-!
# Keys in cursors

A cursor carries a key as its `str`, and `_coerce_key` takes the text back with the type of the
column. A value comes back (`ColumnType.Returns`) if its `str` is text that JSON keeps and that
the type converts to the value again. Each of the three key types has this property for every
value that a column can hold (`KeyType.returns`): an integer whose digits `str` writes, text
without surrogates, and every UUID.

So a cursor that was issued for a key is read as that key (`seekOf_cursor`).
-/

set_option autoImplicit false

namespace PyCommon.Pagination

open CodePoints (Text code text isScalar_of_ascii)
open Json (ascii_of_mem_print)

variable {python : Interpreter} {Key : Type}

/-- The text of a value is converted to the value. -/
def ColumnType.Returns (column : ColumnType Key) (value : Key) : Prop :=
  ∃ content, column.str value = .ok content ∧ (∀ c ∈ content, CodePoints.isScalar c)
    ∧ coerceKey column (.str content) = .ok (.value value)

theorem asciiDigits_map {digits : List Char} (ascii : ∀ c ∈ digits, code c < 0x80) :
    asciiDigits python (digits.map code) = digits := by
  have same : ∀ c ∈ digits,
      ((fun c => if c < 0x80 then Char.ofNat c else python.fold c) ∘ code) c = id c := by
    intro c member
    rw [Function.comp_apply, if_pos (ascii c member)]
    exact Char.ofNat_toNat c
  rw [asciiDigits, List.map_map, List.map_congr_left same, List.map_id]

/-! ## Integers -/

theorem intType_returns {n : ℤ} (short : (Nat.toDigits 10 n.natAbs).length ≤ maxStrDigits) :
    (intType python).Returns n := by
  refine ⟨(Numerals.print n).map code, ?_, ?_, ?_⟩
  · simp only [intType, pyStr, Json.writeInt, if_pos short]
  · intro c member
    obtain ⟨digit, printed, rfl⟩ := List.mem_map.mp member
    exact isScalar_of_ascii (ascii_of_mem_print printed)
  · simp only [coerceKey, intType, pyInt, asciiDigits_map fun c => ascii_of_mem_print,
      Numerals.parse_print short]

/-! ## Text -/

theorem strType_returns {content : Text} (scalar : ∀ c ∈ content, CodePoints.isScalar c) :
    (strType python).Returns content := ⟨content, rfl, scalar, rfl⟩

/-! ## UUIDs -/

theorem removeFrom_of_not_mem {first : ℕ} {pattern content : Text} (absent : first ∉ content) :
    removeFrom (first :: pattern) 0 content = content := by
  induction content with
  | nil => rfl
  | cons c content ih =>
      obtain ⟨other, later⟩ := not_or.mp (List.mem_cons.not.mp absent)
      have differs : ((first :: pattern).isPrefixOf (c :: content)) = false := by
        rw [List.isPrefixOf, beq_eq_false_iff_ne.mpr other, Bool.false_and]
      rw [removeFrom, differs, if_neg Bool.false_ne_true, ih later]

/-- What is known of a hexadecimal digit: its code is none of the characters that `UUID` strips. -/
theorem hexDigit_code {n : ℕ} (small : n < 16) :
    code (Numerals.hexDigit n) < 0x80 ∧ code (Numerals.hexDigit n) ≠ code '-'
      ∧ code (Numerals.hexDigit n) ≠ code 'u' ∧ isBrace (code (Numerals.hexDigit n)) = false := by
  have each : ∀ n < 16, code (Numerals.hexDigit n) < 0x80
      ∧ code (Numerals.hexDigit n) ≠ code '-' ∧ code (Numerals.hexDigit n) ≠ code 'u'
      ∧ isBrace (code (Numerals.hexDigit n)) = false := by decide
  exact each n small

theorem exists_of_mem_hex {u : UUID} {c : ℕ}
    (member : c ∈ (Numerals.printHex 32 u.val).map code) :
    ∃ digit < 16, c = code (Numerals.hexDigit digit) := by
  obtain ⟨printed, inside, rfl⟩ := List.mem_map.mp member
  obtain ⟨digit, small, rfl⟩ := Numerals.exists_of_mem_printHex inside
  exact ⟨digit, small, rfl⟩

theorem mem_uuidText {u : UUID} {c : ℕ} (member : c ∈ uuidText u) :
    c = code '-' ∨ ∃ digit < 16, c = code (Numerals.hexDigit digit) := by
  simp only [uuidText, List.mem_append, List.mem_cons] at member
  rcases member with (((first | rfl | second) | rfl | third) | rfl | fourth) | rfl | fifth
  · exact Or.inr (exists_of_mem_hex (List.mem_of_mem_take first))
  · exact Or.inl rfl
  · exact Or.inr (exists_of_mem_hex (List.mem_of_mem_drop (List.mem_of_mem_take second)))
  · exact Or.inl rfl
  · exact Or.inr (exists_of_mem_hex (List.mem_of_mem_drop (List.mem_of_mem_take third)))
  · exact Or.inl rfl
  · exact Or.inr (exists_of_mem_hex (List.mem_of_mem_drop (List.mem_of_mem_take fourth)))
  · exact Or.inl rfl
  · exact Or.inr (exists_of_mem_hex (List.mem_of_mem_drop fifth))

theorem uuidText_plain {u : UUID} {c : ℕ} (member : c ∈ uuidText u) :
    c < 0x80 ∧ c ≠ code 'u' ∧ isBrace c = false := by
  rcases mem_uuidText member with rfl | ⟨digit, small, rfl⟩
  · decide
  · obtain ⟨ascii, -, letter, brace⟩ := hexDigit_code small
    exact ⟨ascii, letter, brace⟩

/-- The digits of a UUID are its text without the dashes. -/
theorem filter_uuidText (u : UUID) :
    (uuidText u).filter (· ≠ code '-') = (Numerals.printHex 32 u.val).map code := by
  have plain : ∀ c ∈ (Numerals.printHex 32 u.val).map code, decide (c ≠ code '-') = true := by
    intro c member
    obtain ⟨digit, small, rfl⟩ := exists_of_mem_hex member
    exact decide_eq_true (hexDigit_code small).2.1
  unfold uuidText
  generalize (Numerals.printHex 32 u.val).map code = hex at plain
  have kept : ∀ part : Text, (∀ c ∈ part, c ∈ hex) → part.filter (· ≠ code '-') = part :=
    fun part inside => List.filter_eq_self.mpr fun c member => plain c (inside c member)
  have join : ∀ n m, (hex.drop n).take m ++ hex.drop (n + m) = hex.drop n := by
    intro n m
    rw [← List.drop_drop, List.take_append_drop]
  have dashed : ∀ part : Text, (∀ c ∈ part, c ∈ hex) →
      (code '-' :: part).filter (· ≠ code '-') = part := by
    intro part inside
    rw [List.filter_cons_of_neg (by decide), kept part inside]
  have middle : ∀ n, ∀ c ∈ (hex.drop n).take 4, c ∈ hex := fun n c member =>
    List.mem_of_mem_drop (List.mem_of_mem_take member)
  simp only [List.filter_append]
  rw [kept _ fun c => List.mem_of_mem_take, dashed _ (middle 8), dashed _ (middle 12),
    dashed _ (middle 16), dashed _ fun c => List.mem_of_mem_drop]
  simp only [List.append_assoc]
  rw [join 16 4, join 12 4, join 8 4, List.take_append_drop]

theorem uuidOf_uuidText (u : UUID) : uuidOf python (uuidText u) = .ok u := by
  have unnamed : code 'u' ∉ uuidText u := fun member => (uuidText_plain member).2.1 rfl
  have bare : remove (text "uuid:") (remove (text "urn:") (uuidText u)) = uuidText u := by
    have first : remove (text "urn:") (uuidText u) = uuidText u := removeFrom_of_not_mem unnamed
    rw [first]
    exact removeFrom_of_not_mem unnamed
  have front : (uuidText u).dropWhile isBrace = uuidText u := by
    rw [List.dropWhile_eq_self_iff]
    intro long brace
    rw [(uuidText_plain (List.getElem_mem long)).2.2] at brace
    cases brace
  have back : (uuidText u).rdropWhile isBrace = uuidText u := by
    rw [List.rdropWhile_eq_self_iff]
    intro nonempty brace
    rw [(uuidText_plain (List.getLast_mem nonempty)).2.2] at brace
    cases brace
  have length : ((Numerals.printHex 32 u.val).map code).length = 32 := by
    rw [List.length_map, Numerals.length_printHex]
  have ascii : ∀ c ∈ Numerals.printHex 32 u.val, code c < 0x80 := by
    intro c member
    obtain ⟨digit, small, rfl⟩ := Numerals.exists_of_mem_printHex member
    exact (hexDigit_code small).1
  have read : Numerals.parseHex (Numerals.printHex 32 u.val) = some (u.val : ℤ) :=
    Numerals.parseHex_printHex (by decide) (by have := u.isLt; omega)
  have small : 0 ≤ (u.val : ℤ) ∧ (u.val : ℤ) < 2 ^ 128 := by
    have := u.isLt
    omega
  simp only [uuidOf, bare, front, back, filter_uuidText, length, ne_eq, not_true_eq_false, if_false,
    asciiDigits_map ascii, read, dif_pos small, Int.toNat_natCast]

theorem coerceKey_uuidType {content : Text} {u : UUID} (read : uuidOf python content = .ok u) :
    coerceKey (uuidType python) (.str content) = .ok (.value u) := by
  simp only [coerceKey, uuidType, pyStr, bind, Except.bind, read]

theorem uuidType_returns (u : UUID) : (uuidType python).Returns u :=
  ⟨uuidText u, rfl, fun _ member => isScalar_of_ascii (uuidText_plain member).1,
    coerceKey_uuidType (uuidOf_uuidText u)⟩

/-! ## The key types -/

/-- A Python type of a key column. -/
inductive KeyType where
  | int
  | str
  | uuid
  deriving DecidableEq

def KeyType.Value : KeyType → Type
  | .int => ℤ
  | .str => Text
  | .uuid => UUID

def KeyType.columnType (python : Interpreter) : (type : KeyType) → ColumnType type.Value
  | .int => intType python
  | .str => strType python
  | .uuid => uuidType python

/-- An integer that `str` writes. -/
def Printable (n : ℤ) : Prop := (Nat.toDigits 10 n.natAbs).length ≤ maxStrDigits

/-- Text without surrogates. -/
def WellFormed (content : Text) : Prop := ∀ c ∈ content, CodePoints.isScalar c

/-- What a column of the type can hold. The integer types of SQL have at most 19 digits, far
fewer than `str` writes, and no text that a database stores has surrogates. -/
def KeyType.Holds : (type : KeyType) → type.Value → Prop
  | .int, n => Printable n
  | .str, content => WellFormed content
  | .uuid, _ => True

/-- **Every value that a key column can hold comes back.** -/
theorem KeyType.returns {type : KeyType} {value : type.Value} (holds : type.Holds value) :
    (type.columnType python).Returns value := by
  cases type with
  | int => exact intType_returns holds
  | str => exact strType_returns holds
  | uuid => exact uuidType_returns value

/-! ## Cursors -/

theorem decodeCursor_nil : decodeCursor python [] = .error invalidCursor := rfl

/-- **A cursor is read as the key for which it was issued.** -/
theorem seekOf_cursor {Row : Type} {column : ColumnType Key} {key : Row → Key}
    {items : List Row} {last : Row} (atEnd : items.getLast? = some last)
    (returns : column.Returns (key last)) :
    ∃ cursor, cursorAfter python column key items = .ok (some cursor)
      ∧ seekOf python column (some cursor) = .ok (some (key last)) := by
  obtain ⟨content, written, scalar, back⟩ := returns
  have named : ∀ c ∈ text "k", CodePoints.isScalar c := by decide
  obtain ⟨cursor, encoded, decoded⟩ : ∃ cursor,
      encodeCursor python [(text "k", .str content)] = .ok cursor
        ∧ decodeCursor python cursor = .ok [(text "k", .str content)] :=
    decode_encode_member named scalar
  refine ⟨cursor, ?_, ?_⟩
  · simp only [cursorAfter, atEnd, written, encoded, bind, Except.bind, pure, Except.pure]
  · cases cursor with
    | nil =>
        rw [decodeCursor_nil] at decoded
        cases decoded
    | cons c cursor =>
        have found : List.lookup (text "k") [(text "k", Json.Value.str content)]
            = some (.str content) := rfl
        simp only [seekOf, decoded, found, back, compared, bind, Except.bind, pure, Except.pure]

end PyCommon.Pagination
