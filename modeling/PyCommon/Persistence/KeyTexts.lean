import PyCommon.Persistence.KeyTypes

/-!
# Keys that come back

`paginate_cursor` issues a cursor with the `str` of the last key, whatever the type of the
column is, and `_coerce_key` has one branch for each type. What the cursor of a key carries is
its `str` with the surrogate pairs in it joined, so that a key comes back exactly if the branch
of its type reads that text as the key (`comesBack_iff_of_str`).

Every UUID, every date, every time with or without an offset and every finite float comes back.
An integer does unless it has more digits than `str` writes, and a text unless a pair of
surrogates is in it. No byte string does, since `bytes` takes no text (`comesBack_iff`).
-/

set_option autoImplicit false

namespace PyCommon.Pagination

open CodePoints (Text code text isScalar_of_ascii)
open Json (ascii_of_mem_print)

variable {python : Interpreter} {Value : Type}

/-- The cursor that is issued for a key is read as the key. -/
def ComesBack (python : Interpreter) (column : ColumnType Value) (value : Value) : Prop :=
  ∃ content cursor payload raw, column.str value = .ok content
    ∧ encodeCursor python [(text "k", .str content)] = .ok cursor
    ∧ decodeCursor python cursor = .ok payload
    ∧ payload.lookup (text "k") = some raw
    ∧ coerceKey column raw = .ok (.value value)

/-- **What a cursor carries of a key.** -/
theorem comesBack_iff_of_str {column : ColumnType Value} {value : Value} {content : Text}
    (written : column.str value = .ok content) (valid : ∀ c ∈ content, c < 0x110000) :
    ComesBack python column value
      ↔ coerceKey column (.str (CodePoints.joinPairs content)) = .ok (.value value) := by
  have named : ∀ c ∈ text "k", CodePoints.isScalar c := by decide
  obtain ⟨cursor, encoded, decoded⟩ : ∃ cursor,
      encodeCursor python [(text "k", .str content)] = .ok cursor
        ∧ decodeCursor python cursor
          = .ok [(text "k", .str (CodePoints.joinPairs content))] :=
    decode_encode_text named valid
  constructor
  · rintro ⟨other, issued, payload, raw, str, encodes, decodes, carried, coerced⟩
    obtain rfl := Except.ok.inj (written.symm.trans str)
    obtain rfl := Except.ok.inj (encoded.symm.trans encodes)
    obtain rfl := Except.ok.inj (decoded.symm.trans decodes)
    cases carried
    exact coerced
  · intro coerced
    exact ⟨content, cursor, _, _, written, encoded, decoded, rfl, coerced⟩

/-- A key whose `str` is ASCII comes back if its type reads the `str`. -/
theorem comesBack_iff_of_ascii {column : ColumnType Value} {value : Value} {content : Text}
    (written : column.str value = .ok content) (ascii : ∀ c ∈ content, c < 0x80) :
    ComesBack python column value ↔ coerceKey column (.str content) = .ok (.value value) := by
  have scalar : ∀ c ∈ content, CodePoints.isScalar c := fun c member =>
    isScalar_of_ascii (ascii c member)
  rw [comesBack_iff_of_str written fun c member => Json.lt_of_isScalar (scalar c member),
    Json.joinPairs_of_scalar scalar]

/-! ## One type after the other -/

variable (conv : Conversions python)

theorem coerceKey_readAs {read : Text → Option Value} {column : ColumnType Value}
    {content : Text} {value : Value} (none_ : column.isInstance (.str content) = none)
    (convert : column.convert = readAs python read) (reads : read content = some value) :
    coerceKey column (.str content) = .ok (.value value) := by
  simp only [coerceKey, none_, convert, readAs, pyStr, bind, Except.bind, reads]

theorem datetime_comesBack (moment : IsoTimes.DateTime) :
    ComesBack python (datetimeType python) moment :=
  (comesBack_iff_of_ascii rfl (moment.isoformat_ascii (by decide))).mpr
    (coerceKey_readAs rfl rfl (IsoTimes.readDateTime_isoformat (code ' ') moment))

theorem date_comesBack (date : IsoTimes.Date) : ComesBack python (dateType python) date :=
  (comesBack_iff_of_ascii rfl date.isoformat_ascii).mpr
    (coerceKey_readAs rfl rfl (IsoTimes.readDate_isoformat date))

theorem uuid_comesBack (u : UUID) : ComesBack python (uuidType python) u :=
  (comesBack_iff_of_ascii rfl fun _ member => (uuidText_plain member).1).mpr
    (coerceKey_uuidType (uuidOf_uuidText u))

theorem float_comesBack {repr : Text} (finite : conv.finite repr) :
    ComesBack python (floatType conv) repr := by
  apply (comesBack_iff_of_ascii rfl (conv.finite_ascii repr finite)).mpr
  simp only [coerceKey, floatType, floatOf, conv.float_repr repr finite]

/-- An integer comes back if `str` writes it. -/
theorem int_comesBack_iff (n : ℤ) : ComesBack python (intType python) n ↔ Printable n := by
  constructor
  · rintro ⟨content, -, -, -, str, -⟩
    by_contra long
    have digits : ¬ (Nat.toDigits 10 n.natAbs).length ≤ maxStrDigits := long
    simp only [intType, pyStr, Json.writeInt, if_neg digits] at str
    cases str
  · intro short
    have str : (intType python).str n = .ok ((Numerals.print n).map code) := by
      simp only [intType, pyStr, Json.writeInt, if_pos (show _ ≤ maxStrDigits from short)]
    have ascii : ∀ c ∈ (Numerals.print n).map code, c < 0x80 := by
      intro c member
      obtain ⟨digit, printed, rfl⟩ := List.mem_map.mp member
      exact ascii_of_mem_print printed
    apply (comesBack_iff_of_ascii str ascii).mpr
    simp only [coerceKey, intType, pyInt, asciiDigits_map fun c => ascii_of_mem_print,
      Numerals.parse_print short]

/-- A text comes back if no pair of surrogates is in it. -/
theorem str_comesBack_iff {content : Text} (valid : ∀ c ∈ content, c < 0x110000) :
    ComesBack python (strType python) content ↔ CodePoints.Apart content := by
  have str : (strType python).str content = .ok content := rfl
  have coerced : coerceKey (strType python) (.str (CodePoints.joinPairs content))
      = .ok (.value (CodePoints.joinPairs content)) := rfl
  rw [comesBack_iff_of_str str valid, coerced, Except.ok.injEq, KeyValue.value.injEq,
    CodePoints.joinPairs_eq_self_iff]

/-- `bytes` takes no text. -/
theorem not_bytes_comesBack (raw : List UInt8) : ¬ ComesBack python (bytesType conv) raw := by
  rw [comesBack_iff_of_ascii rfl (Python.reprBytes_ascii raw)]
  intro coerced
  cases coerced

/-! ## All types -/

/-- What a value of the type is: a text has code points, and a float is finite. -/
def PythonType.Admits : (type : PythonType) → type.Value → Prop
  | .float, repr => conv.finite repr
  | .str, (content : Text) => ∀ c ∈ content, c < 0x110000
  | _, _ => True

/-- The keys that come back. -/
def PythonType.Survives : (type : PythonType) → type.Value → Prop
  | .int, n => Printable n
  | .str, content => CodePoints.Apart content
  | .bytes, _ => False
  | _, _ => True

/-- **Which keys come back.** -/
theorem comesBack_iff (type : PythonType) (value : type.Value) (admitted : type.Admits conv value) :
    ComesBack python (type.columnType conv) value ↔ type.Survives value := by
  cases type with
  | uuid => exact iff_of_true (uuid_comesBack value) trivial
  | datetime => exact iff_of_true (datetime_comesBack value) trivial
  | date => exact iff_of_true (date_comesBack value) trivial
  | int => exact int_comesBack_iff value
  | float => exact iff_of_true (float_comesBack conv admitted) trivial
  | str => exact str_comesBack_iff admitted
  | bytes => exact iff_of_false (not_bytes_comesBack conv value) id

/-- The half comes back. -/
theorem half_comesBack : ComesBack halves (PythonType.float.columnType halfFloats) (text "0.5") :=
  (comesBack_iff halfFloats .float (text "0.5") rfl).mpr trivial

/-- **The cursor that is issued for a byte string is rejected.** -/
theorem bytes_rejected :
    ∃ cursor, encodeCursor halves [(text "k", .str (Python.reprBytes [97]))] = .ok cursor
      ∧ seekOf halves (PythonType.bytes.columnType halfFloats) (some cursor) = .error invalidCursor
      ∧ ¬ ComesBack halves (PythonType.bytes.columnType halfFloats) [97] :=
  ⟨_, rfl, rfl, not_bytes_comesBack halfFloats [97]⟩

end PyCommon.Pagination
