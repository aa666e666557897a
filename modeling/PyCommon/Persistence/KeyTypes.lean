import PyCommon.Lib.IsoTimes
import PyCommon.Lib.JsonTexts
import PyCommon.Lib.PythonValues
import PyCommon.Persistence.CursorKeys

/-!
# The Python types of key columns

`_coerce_key` names seven Python types, and converts what a cursor carries with the constructor
or the `fromisoformat` of the column's type. What a conversion raises as a `TypeError` or a
`ValueError` becomes the `ValueError` of a malformed cursor.

Three conversions raise other exceptions: `int` of an infinity and `float` of a large integer an
`OverflowError`, `bytes` of a large integer an `OverflowError` or a `MemoryError`. A `bool` passes
as an `int`, and SQLAlchemy raises an `ArgumentError` where the column is compared with it. And
`decode_cursor` lets the `RecursionError` pass that `json.loads` raises for deep nesting. These
are the only cursors for which something else than a `ValueError` is raised before the query
(`only_value_errors_iff`).
-/

set_option autoImplicit false

namespace PyCommon.Pagination

open CodePoints (Text code text)

/-! ## Conversions -/

/-- What `int`, `float` and `bytes` do with floats and with memory. A float is its `repr`. -/
structure Conversions (python : Interpreter) where
  /-- `float` of a text, which may not be one of a number. -/
  float : Text → Option Text
  /-- `float` of an integer that is not too large. -/
  nearest : ℤ → Text
  /-- The bytes that can be allocated. -/
  memory : ℕ
  /-- The texts that are the `repr` of a finite float. -/
  finite : Text → Prop
  finite_ascii : ∀ repr, finite repr → Json.Ascii repr
  /-- The `repr` of a float is read as the float. -/
  float_repr : ∀ repr, finite repr → float repr = some repr
  /-- No integer is nearest to an infinity. -/
  truncate_infinite : ∀ repr ∈ [text "inf", text "-inf"],
    python.truncate repr = .error .overflowError
  truncate_error : ∀ repr e, python.truncate repr = .error e →
    e = .conversionError ∨ e = .overflowError ∧ repr ∈ [text "inf", text "-inf"]

section Columns

variable {python : Interpreter} (conv : Conversions python)

/-- The least integer that is too large for a float: half a step beyond the largest one. -/
def floatLimit : ℕ := 2 ^ 1024 - 2 ^ 970

/-- `float` of a JSON value that is no `float`. -/
def floatOf : Json.Value → Except CursorExc Text
  | .bool b => .ok (conv.nearest (if b then 1 else 0))
  | .int n => if floatLimit ≤ n.natAbs then .error .overflowError else .ok (conv.nearest n)
  | .str content =>
      match conv.float content with
      | some repr => .ok repr
      | none => .error .conversionError
  | _ => .error .typeError

/-- `bytes` of so many zeros. The size of an object is a signed number of 64 bits, of which
its header takes 33. -/
def zeros (n : ℤ) : Except CursorExc (List UInt8) :=
  if n < -2 ^ 63 ∨ 2 ^ 63 ≤ n then .error .overflowError
  else if n < 0 then .error .conversionError
  else if 2 ^ 63 - 34 < n then .error .overflowError
  else if conv.memory < n then .error .memoryError
  else .ok (List.replicate n.toNat 0)

/-- A byte as an item of a list. -/
def byteOf : Json.Value → Except CursorExc UInt8
  | .bool b => .ok (if b then 1 else 0)
  | .int n => if 0 ≤ n ∧ n < 256 then .ok (UInt8.ofNat n.toNat) else .error .conversionError
  | _ => .error .typeError

def byteItems : List Json.Value → Except CursorExc (List UInt8)
  | [] => .ok []
  | item :: rest => do
      let first ← byteOf item
      let later ← byteItems rest
      return first :: later

/-- `bytes` of a JSON value. The items of a dictionary are its names, which are no bytes. -/
def bytesOf : Json.Value → Except CursorExc (List UInt8)
  | .bool b => zeros conv (if b then 1 else 0)
  | .int n => zeros conv n
  | .list items => byteItems items
  | .dict [] => .ok []
  | _ => .error .typeError

/-! ## The columns -/

/-- `fromisoformat` of the `str` of a JSON value. -/
def readAs {Value : Type} (python : Interpreter) (read : Text → Option Value) (raw : Json.Value) :
    Except CursorExc Value := do
  let content ← pyStr python raw
  match read content with
  | some value => .ok value
  | none => .error .conversionError

def datetimeType (python : Interpreter) : ColumnType IsoTimes.DateTime where
  isInstance _ := none
  convert := readAs python IsoTimes.readDateTime
  str moment := .ok (moment.isoformat (code ' '))

def dateType (python : Interpreter) : ColumnType IsoTimes.Date where
  isInstance _ := none
  convert := readAs python IsoTimes.readDate
  str date := .ok date.isoformat

def floatType : ColumnType Text where
  isInstance
    | .float repr => some (.value repr)
    | _ => none
  convert := floatOf conv
  str := .ok

def bytesType : ColumnType (List UInt8) where
  isInstance _ := none
  convert := bytesOf conv
  str raw := .ok (Python.reprBytes raw)

/-- The Python types that `_coerce_key` names. -/
inductive PythonType where
  | uuid
  | datetime
  | date
  | int
  | float
  | str
  | bytes
  deriving DecidableEq

def PythonType.Value : PythonType → Type
  | .uuid => UUID
  | .datetime => IsoTimes.DateTime
  | .date => IsoTimes.Date
  | .int => ℤ
  | .float => Text
  | .str => Text
  | .bytes => List UInt8

def PythonType.columnType : (type : PythonType) → ColumnType type.Value
  | .uuid => uuidType python
  | .datetime => datetimeType python
  | .date => dateType python
  | .int => intType python
  | .float => floatType conv
  | .str => strType python
  | .bytes => bytesType conv

/-! ## What escapes -/

/-- The conversion to the type raises neither a `TypeError` nor a `ValueError`. -/
def PythonType.OutOfRange : PythonType → Json.Value → Prop
  | .int, .float repr => repr ∈ [text "inf", text "-inf"]
  | .float, .int n => floatLimit ≤ n.natAbs
  | .bytes, .int n => n < -2 ^ 63 ∨ 2 ^ 63 - 34 < n ∨ 0 ≤ n ∧ conv.memory < n
  | .bytes, .bool b => conv.memory < if b then 1 else 0
  | _, _ => False

/-- The value passes as one of the type, and no column is compared with it. -/
def PythonType.Unordered : PythonType → Json.Value → Prop
  | .int, .bool _ => True
  | _, _ => False

/-- The `except` clause of `_coerce_key` catches the exception. -/
def Caught (e : CursorExc) : Prop := e = .typeError ∨ e.isValueError = true

theorem coerceKey_errors {Value : Type} {column : ColumnType Value} {raw : Json.Value} :
    (∀ e, coerceKey column raw = .error e → e.isValueError = true)
      ↔ (column.isInstance raw = none → ∀ e, column.convert raw = .error e → Caught e) := by
  unfold coerceKey
  cases column.isInstance raw with
  | some value => simp
  | none =>
      cases column.convert raw with
      | ok value => simp
      | error e =>
          constructor
          · intro plain _ raised same
            obtain rfl := Except.error.inj same
            by_contra escapes
            have other : ¬ (e = .typeError ∨ e.isValueError = true) := escapes
            exact escapes (Or.inr (plain e (by simp only [if_neg other])))
          · intro caught raised same
            have known : e = .typeError ∨ e.isValueError = true := caught rfl e rfl
            simp only [if_pos known, Except.error.injEq] at same
            rw [← same]
            rfl

theorem pyStr_error {raw : Json.Value} {e : CursorExc} (raised : pyStr python raw = .error e) :
    e = .conversionError := by
  cases raw with
  | int n =>
      simp only [pyStr] at raised
      split at raised
      · cases raised
      · cases raised
        rfl
  | _ => cases raised

theorem caught_conversionError : Caught .conversionError := Or.inr rfl

theorem caught_typeError : Caught .typeError := Or.inl rfl

theorem caught_readAs {Value : Type} {read : Text → Option Value} {raw : Json.Value}
    {e : CursorExc} (raised : readAs python read raw = .error e) : Caught e := by
  unfold readAs at raised
  cases content : pyStr python raw with
  | error first =>
      rw [content] at raised
      cases raised
      rw [pyStr_error content]
      exact caught_conversionError
  | ok written =>
      rw [content] at raised
      simp only [bind, Except.bind] at raised
      split at raised
      · cases raised
      · cases raised
        exact caught_conversionError

theorem caught_uuidType {raw : Json.Value} {e : CursorExc}
    (raised : (uuidType python).convert raw = .error e) : Caught e := by
  simp only [uuidType] at raised
  cases content : pyStr python raw with
  | error first =>
      rw [content] at raised
      cases raised
      rw [pyStr_error content]
      exact caught_conversionError
  | ok written =>
      rw [content] at raised
      simp only [bind, Except.bind, uuidOf] at raised
      split at raised
      · cases raised
        exact caught_conversionError
      · split at raised
        · cases raised
          exact caught_conversionError
        · split at raised
          · cases raised
          · cases raised
            exact caught_conversionError

theorem caught_pyInt {raw : Json.Value} :
    ((intType python).isInstance raw = none → ∀ e, pyInt python raw = .error e → Caught e)
      ↔ ¬ PythonType.int.OutOfRange conv raw := by
  cases raw with
  | float repr =>
      constructor
      · intro caught infinite
        have escapes := caught rfl _ (conv.truncate_infinite repr infinite)
        exact absurd escapes (by unfold Caught; decide)
      · intro finite _ e raised
        rcases conv.truncate_error repr e raised with rfl | ⟨-, infinite⟩
        · exact caught_conversionError
        · exact absurd infinite finite
  | str content =>
      refine ⟨fun _ => id, fun _ _ e raised => ?_⟩
      simp only [pyInt] at raised
      split at raised
      · cases raised
      · cases raised
        exact caught_conversionError
  | int n | bool b =>
      refine ⟨fun _ => id, fun _ other => ?_⟩
      cases other
  | null | list items | dict members =>
      refine ⟨fun _ => id, fun _ _ e raised => ?_⟩
      cases raised
      exact caught_typeError

theorem caught_floatOf {raw : Json.Value} :
    ((floatType conv).isInstance raw = none → ∀ e, floatOf conv raw = .error e → Caught e)
      ↔ ¬ PythonType.float.OutOfRange conv raw := by
  cases raw with
  | int n =>
      by_cases large : floatLimit ≤ n.natAbs
      · constructor
        · intro caught
          have escapes := caught rfl .overflowError (by rw [floatOf, if_pos large])
          exact absurd escapes (by unfold Caught; decide)
        · exact fun inside => absurd large inside
      · constructor
        · exact fun _ => large
        · intro _ _ e raised
          rw [floatOf, if_neg large] at raised
          cases raised
  | str content =>
      refine ⟨fun _ => id, fun _ _ e raised => ?_⟩
      simp only [floatOf] at raised
      split at raised
      · cases raised
      · cases raised
        exact caught_conversionError
  | float repr =>
      refine ⟨fun _ => id, fun _ other => ?_⟩
      cases other
  | bool b =>
      refine ⟨fun _ => id, fun _ _ e raised => ?_⟩
      cases raised
  | null | list items | dict members =>
      refine ⟨fun _ => id, fun _ _ e raised => ?_⟩
      cases raised
      exact caught_typeError

theorem caught_zeros {n : ℤ} : (∀ e, zeros conv n = .error e → Caught e)
    ↔ ¬ (n < -2 ^ 63 ∨ 2 ^ 63 - 34 < n ∨ 0 ≤ n ∧ conv.memory < n) := by
  have overflow : ¬ Caught .overflowError := by unfold Caught; decide
  have memory : ¬ Caught .memoryError := by unfold Caught; decide
  unfold zeros
  split
  · constructor
    · exact fun caught => absurd (caught _ rfl) overflow
    · intro inside
      omega
  · split
    · constructor
      · intro _
        omega
      · intro _ e raised
        cases raised
        exact caught_conversionError
    · split
      · constructor
        · exact fun caught => absurd (caught _ rfl) overflow
        · intro inside
          omega
      · split
        · constructor
          · exact fun caught => absurd (caught _ rfl) memory
          · intro inside
            omega
        · constructor
          · intro _
            omega
          · intro _ e raised
            cases raised

theorem caught_byteItems {items : List Json.Value} {e : CursorExc}
    (raised : byteItems items = .error e) : Caught e := by
  have one : ∀ item, byteOf item = .error e → Caught e := by
    intro item raised
    unfold byteOf at raised
    split at raised
    · cases raised
    · split at raised
      · cases raised
      · cases raised
        exact caught_conversionError
    · cases raised
      exact caught_typeError
  induction items with
  | nil => cases raised
  | cons item rest ih =>
      cases first : byteOf item with
      | error other =>
          rw [byteItems, first] at raised
          cases raised
          exact one item first
      | ok byte =>
          cases later : byteItems rest with
          | error other =>
              rw [byteItems, first, later] at raised
              cases raised
              exact ih later
          | ok bytes =>
              rw [byteItems, first, later] at raised
              cases raised

theorem caught_bytesOf {raw : Json.Value} :
    ((bytesType conv).isInstance raw = none → ∀ e, bytesOf conv raw = .error e → Caught e)
      ↔ ¬ PythonType.bytes.OutOfRange conv raw := by
  cases raw with
  | int n => exact ⟨fun caught => (caught_zeros conv).mp (caught rfl),
      fun inside _ => (caught_zeros conv).mpr inside⟩
  | bool b =>
      have small : ∀ b : Bool, ¬ ((if b then 1 else 0 : ℤ) < -2 ^ 63
          ∨ 2 ^ 63 - 34 < (if b then 1 else 0 : ℤ)
          ∨ 0 ≤ (if b then 1 else 0 : ℤ) ∧ (conv.memory : ℤ) < if b then 1 else 0)
        ↔ ¬ conv.memory < if b then 1 else 0 := by
        intro b
        cases b with
        | false => simp
        | true =>
            simp only [if_true]
            omega
      exact ⟨fun caught => (small b).mp ((caught_zeros conv).mp (caught rfl)),
        fun inside _ => (caught_zeros conv).mpr ((small b).mpr inside)⟩
  | list items => exact ⟨fun _ => id, fun _ _ e raised => caught_byteItems raised⟩
  | dict members =>
      refine ⟨fun _ => id, fun _ _ e raised => ?_⟩
      cases members with
      | nil => cases raised
      | cons member rest =>
          cases raised
          exact caught_typeError
  | null | float repr | str content =>
      refine ⟨fun _ => id, fun _ _ e raised => ?_⟩
      cases raised
      exact caught_typeError

/-- **What `_coerce_key` raises.** A `ValueError`, except where the conversion is out of range. -/
theorem coerceKey_errors_iff (type : PythonType) (raw : Json.Value) :
    (∀ e, coerceKey (type.columnType conv) raw = .error e → e.isValueError = true)
      ↔ ¬ type.OutOfRange conv raw := by
  rw [coerceKey_errors]
  cases type with
  | uuid => exact ⟨fun _ => id, fun _ _ e raised => caught_uuidType raised⟩
  | datetime => exact ⟨fun _ => id, fun _ _ e raised => caught_readAs raised⟩
  | date => exact ⟨fun _ => id, fun _ _ e raised => caught_readAs raised⟩
  | int => exact caught_pyInt conv
  | float => exact caught_floatOf conv
  | bytes => exact caught_bytesOf conv
  | str =>
      refine ⟨fun _ => id, fun _ _ e raised => ?_⟩
      have known : pyStr python raw = .error e := raised
      rw [pyStr_error known]
      exact caught_conversionError

theorem coerceKey_bool {Value : Type} {column : ColumnType Value} {raw : Json.Value} {b : Bool} :
    coerceKey column raw = .ok (.bool b) ↔ column.isInstance raw = some (.bool b) := by
  unfold coerceKey
  cases column.isInstance raw with
  | some value => simp only [Except.ok.injEq, Option.some.injEq]
  | none => cases column.convert raw <;> simp

/-- **What `_coerce_key` returns as a `bool`.** It is `True` or `False` for an integer column. -/
theorem coerceKey_bool_iff (type : PythonType) (raw : Json.Value) :
    (∃ b, coerceKey (type.columnType conv) raw = .ok (.bool b)) ↔ type.Unordered raw := by
  simp only [coerceKey_bool]
  cases type with
  | uuid | datetime | date | bytes => exact iff_of_false (fun ⟨b, same⟩ => by cases same) id
  | int =>
      cases raw with
      | bool b => exact iff_of_true ⟨b, rfl⟩ trivial
      | _ => exact iff_of_false (fun ⟨b, same⟩ => by cases same) id
  | float | str => cases raw <;> exact iff_of_false (fun ⟨b, same⟩ => by cases same) id

end Columns

/-! ## Before the query -/

section Paging

variable {python : Interpreter} {Value : Type}

/-- What `paginate_cursor` does before its query: the limit, and the value to seek. -/
def prepare (python : Interpreter) (column : ColumnType Value) (limit maxLimit : ℤ)
    (cursor : Option Text) : Except CursorExc (ℤ × Option Value) := do
  let limit ← clamp limit maxLimit
  let seek ← seekOf python column cursor
  return (limit, seek)

/-- The query of `paginate_cursor` and what follows it. -/
def queried {Row : Type} [LinearOrder Value] (python : Interpreter) (column : ColumnType Value)
    (key : Row → Value) (snapshot : List Row) (descending : Bool) (limit : ℤ)
    (seek : Option Value) : Except CursorExc (Page Row) := do
  let rows := execute key descending seek (limit + 1) snapshot
  let hasMore : Bool := limit < rows.length
  let items := sliceTo rows limit
  let nextCursor ← if hasMore then cursorAfter python column key items else .ok none
  return { items, pageMeta := { limit, nextCursor, hasMore } }

/-- The query is made after all that reads the request. -/
theorem paginateCursor_eq {Row : Type} [LinearOrder Value] (column : ColumnType Value)
    (key : Row → Value) (snapshot : List Row) (limit maxLimit : ℤ) (cursor : Option Text)
    (descending : Bool) :
    paginateCursor python column key snapshot limit cursor descending maxLimit
      = (prepare python column limit maxLimit cursor).bind fun prepared =>
        queried python column key snapshot descending prepared.1 prepared.2 := by
  unfold paginateCursor prepare
  cases clamp limit maxLimit with
  | error e => rfl
  | ok size =>
      simp only [bind, Except.bind]
      cases seekOf python column cursor with
      | error e => rfl
      | ok seek => rfl

/-- What `json.loads` makes of a cursor that is Base64. -/
def loaded (python : Interpreter) (cursor : Text) : Option (Except Json.Failure Json.Value) := do
  let encoded ← CodePoints.encodeUtf8 (padded cursor)
  let raw ← Base64.decode encoded
  return Json.load python.float maxStrDigits (python.room + 1) raw

/-- Nothing but a `ValueError` is raised for a cursor before the query, be it by `decode_cursor`,
by `_coerce_key` or in between, and else the query seeks a value of the column's type. -/
structure OnlyValueErrors (python : Interpreter) (column : ColumnType Value) (cursor : Text) :
    Prop where
  decoding : ∀ e, decodeCursor python cursor = .error e → e.isValueError = true
  coercing : ∀ payload raw, decodeCursor python cursor = .ok payload →
    payload.lookup (text "k") = some raw →
      ∀ e, coerceKey column raw = .error e → e.isValueError = true
  paging : ∀ limit maxLimit : ℤ,
    (∃ e, prepare python column limit maxLimit (some cursor) = .error e ∧ e.isValueError = true)
      ∨ ∃ size last, prepare python column limit maxLimit (some cursor) = .ok (size, some last)

/-- The payload is the object that was loaded. -/
theorem decodeCursor_eq_ok {cursor : Text} {payload : List (Text × Json.Value)} :
    decodeCursor python cursor = .ok payload
      ↔ loaded python cursor = some (.ok (.dict payload)) := by
  cases encoding : CodePoints.encodeUtf8 (padded cursor) with
  | none => simp [decodeCursor, loaded, encoding]
  | some encoded =>
      cases decoding : Base64.decode encoded with
      | none => simp [decodeCursor, loaded, encoding, decoding]
      | some raw =>
          cases loading : Json.load python.float maxStrDigits (python.room + 1) raw with
          | error failure =>
              cases failure <;> simp [decodeCursor, loaded, encoding, decoding, loading]
          | ok value => cases value <;> simp [decodeCursor, loaded, encoding, decoding, loading]

/-- Decoding raises a `ValueError`, unless the nesting is too deep. -/
theorem decodeCursor_errors_iff {cursor : Text} :
    (∀ e, decodeCursor python cursor = .error e → e.isValueError = true)
      ↔ loaded python cursor ≠ some (.error .depth) := by
  cases encoding : CodePoints.encodeUtf8 (padded cursor) with
  | none => simp [decodeCursor, loaded, encoding, CursorExc.isValueError]
  | some encoded =>
      cases decoding : Base64.decode encoded with
      | none =>
          simp [decodeCursor, loaded, encoding, decoding, CursorExc.isValueError, invalidCursor]
      | some raw =>
          cases loading : Json.load python.float maxStrDigits (python.room + 1) raw with
          | error failure =>
              cases failure <;> simp [decodeCursor, loaded, encoding, decoding, loading,
                CursorExc.isValueError, invalidCursor]
          | ok value =>
              cases value <;> simp [decodeCursor, loaded, encoding, decoding, loading,
                CursorExc.isValueError, invalidCursor]

/-- A `bool` is refused where it is compared with the column. -/
theorem seekOf_bool {column : ColumnType Value} {cursor : Text} {raw : Json.Value} {b : Bool}
    {payload : List (Text × Json.Value)} (nonempty : cursor ≠ [])
    (decoded : decodeCursor python cursor = .ok payload)
    (carried : payload.lookup (text "k") = some raw)
    (coerced : coerceKey column raw = .ok (.bool b)) :
    seekOf python column (some cursor) = .error .argumentError := by
  obtain ⟨c, rest, rfl⟩ := List.exists_cons_of_ne_nil nonempty
  simp only [seekOf, decoded, carried, coerced, compared, bind, Except.bind]

/-- A cursor that raises only `ValueError`s and carries no `bool` that passes as a key is refused
by one, or gives a key to seek. -/
theorem seekOf_returns {column : ColumnType Value} {cursor : Text} (nonempty : cursor ≠ [])
    (decoding : ∀ e, decodeCursor python cursor = .error e → e.isValueError = true)
    (coercing : ∀ payload raw, decodeCursor python cursor = .ok payload →
      payload.lookup (text "k") = some raw →
        ∀ e, coerceKey column raw = .error e → e.isValueError = true)
    (ordered : ∀ payload raw, decodeCursor python cursor = .ok payload →
      payload.lookup (text "k") = some raw → ∀ b, coerceKey column raw ≠ .ok (.bool b)) :
    (∃ e, seekOf python column (some cursor) = .error e ∧ e.isValueError = true)
      ∨ ∃ last, seekOf python column (some cursor) = .ok (some last) := by
  obtain ⟨c, rest, rfl⟩ := List.exists_cons_of_ne_nil nonempty
  cases decoded : decodeCursor python (c :: rest) with
  | error e =>
      refine Or.inl ⟨e, ?_, decoding e decoded⟩
      rw [seekOf, decoded]
      rfl
  | ok payload =>
      cases carried : payload.lookup (text "k") with
      | none =>
          refine Or.inl ⟨invalidCursor, ?_, rfl⟩
          simp only [seekOf, decoded, carried, bind, Except.bind]
      | some raw =>
          cases coerced : coerceKey column raw with
          | error e =>
              refine Or.inl ⟨e, ?_, coercing payload raw decoded carried e coerced⟩
              simp only [seekOf, decoded, carried, coerced, bind, Except.bind]
          | ok last =>
              cases last with
              | bool b => exact absurd coerced (ordered payload raw decoded carried b)
              | value last =>
                  refine Or.inr ⟨last, ?_⟩
                  simp only [seekOf, decoded, carried, coerced, compared, bind, Except.bind, pure,
                    Except.pure]

/-- What is raised before the query is what the limit raises, or what the cursor does. -/
theorem prepare_returns {column : ColumnType Value} {cursor : Text}
    (seeks : (∃ e, seekOf python column (some cursor) = .error e ∧ e.isValueError = true)
      ∨ ∃ last, seekOf python column (some cursor) = .ok (some last)) (limit maxLimit : ℤ) :
    (∃ e, prepare python column limit maxLimit (some cursor) = .error e ∧ e.isValueError = true)
      ∨ ∃ size last,
        prepare python column limit maxLimit (some cursor) = .ok (size, some last) := by
  cases clamped : clamp limit maxLimit with
  | error e =>
      refine Or.inl ⟨e, by rw [prepare, clamped]; rfl, ?_⟩
      unfold clamp at clamped
      split at clamped
      · cases clamped
        rfl
      · cases clamped
  | ok size =>
      rcases seeks with ⟨e, raised, plain⟩ | ⟨last, seek⟩
      · exact Or.inl ⟨e, by rw [prepare, clamped, raised]; rfl, plain⟩
      · exact Or.inr ⟨size, last, by rw [prepare, clamped, seek]; rfl⟩

/-- No cursor that carries a `bool` for the key gets as far as the query. -/
theorem OnlyValueErrors.ordered {column : ColumnType Value} {cursor : Text} {raw : Json.Value}
    {payload : List (Text × Json.Value)} (only : OnlyValueErrors python column cursor)
    (nonempty : cursor ≠ []) (decoded : decodeCursor python cursor = .ok payload)
    (carried : payload.lookup (text "k") = some raw) (b : Bool) :
    coerceKey column raw ≠ .ok (.bool b) := by
  intro coerced
  have refused : prepare python column 1 1 (some cursor) = .error .argumentError := by
    rw [prepare, seekOf_bool nonempty decoded carried coerced]
    rfl
  rcases only.paging 1 1 with ⟨e, same, plain⟩ | ⟨size, last, same⟩
  · rw [refused] at same
    cases same
    cases plain
  · rw [refused] at same
    cases same

/-- **Malformed cursors.** A cursor that is not empty raises nothing but a `ValueError`, or is
read as a value of the column's type, exactly if its JSON is not nested too deep and its key is
neither out of the range of the type's conversion nor a `bool` for an integer column. -/
theorem only_value_errors_iff (conv : Conversions python) (type : PythonType) (cursor : Text)
    (nonempty : cursor ≠ []) :
    OnlyValueErrors python (type.columnType conv) cursor
      ↔ loaded python cursor ≠ some (.error .depth)
        ∧ ∀ payload raw, loaded python cursor = some (.ok (.dict payload)) →
          payload.lookup (text "k") = some raw →
            ¬ type.OutOfRange conv raw ∧ ¬ type.Unordered raw := by
  constructor
  · intro only
    refine ⟨decodeCursor_errors_iff.mp only.decoding, ?_⟩
    intro payload raw object carried
    have decoded := decodeCursor_eq_ok.mpr object
    refine ⟨(coerceKey_errors_iff conv type raw).mp (only.coercing payload raw decoded carried), ?_⟩
    intro unordered
    obtain ⟨b, coerced⟩ := (coerceKey_bool_iff conv type raw).mpr unordered
    exact only.ordered nonempty decoded carried b coerced
  · rintro ⟨shallow, inRange⟩
    have decoding := decodeCursor_errors_iff.mpr shallow
    have coercing : ∀ payload raw, decodeCursor python cursor = .ok payload →
        payload.lookup (text "k") = some raw →
          ∀ e, coerceKey (type.columnType conv) raw = .error e → e.isValueError = true := by
      intro payload raw decoded carried
      exact (coerceKey_errors_iff conv type raw).mpr
        (inRange payload raw (decodeCursor_eq_ok.mp decoded) carried).1
    have ordered : ∀ payload raw, decodeCursor python cursor = .ok payload →
        payload.lookup (text "k") = some raw →
          ∀ b, coerceKey (type.columnType conv) raw ≠ .ok (.bool b) := by
      intro payload raw decoded carried b coerced
      exact (inRange payload raw (decodeCursor_eq_ok.mp decoded) carried).2
        ((coerceKey_bool_iff conv type raw).mp ⟨b, coerced⟩)
    exact ⟨decoding, coercing, prepare_returns (seekOf_returns nonempty decoding coercing ordered)⟩

end Paging

/-! ## Two cursors for an integer column -/

/-- An interpreter whose only finite float is a half. -/
def halves : Interpreter where
  room := 2
  float literal := literal
  truncate repr :=
    if repr = text "0.5" then .ok 0
    else if repr ∈ [text "inf", text "-inf"] then .error .overflowError
    else .error .conversionError
  repr _ := []
  fold _ := ' '

def halfFloats : Conversions halves where
  float content := if content = text "0.5" then some content else none
  nearest n := (Numerals.print n).map code ++ text ".0"
  memory := 1000
  finite repr := repr = text "0.5"
  finite_ascii := by
    rintro repr rfl
    decide
  float_repr := by
    rintro repr rfl
    rfl
  truncate_infinite := by decide
  truncate_error := by
    intro repr e raised
    simp only [halves] at raised
    split at raised
    · cases raised
    · split at raised
      · rename_i infinite
        cases raised
        exact Or.inr ⟨rfl, infinite⟩
      · cases raised
        exact Or.inl rfl

/-- The cursor of `{"k":1}` raises nothing. -/
theorem plain_cursor_read :
    OnlyValueErrors halves (PythonType.int.columnType halfFloats) (text "eyJrIjoxfQ") := by
  have object : loaded halves (text "eyJrIjoxfQ") = some (.ok (.dict [(text "k", .int 1)])) := rfl
  apply (only_value_errors_iff halfFloats .int (text "eyJrIjoxfQ") (by decide)).mpr
  rw [object]
  refine ⟨fun same => (by cases same), ?_⟩
  rintro payload raw same carried
  cases same
  cases carried
  exact ⟨fun inside => inside, fun inside => inside⟩

/-- **The cursor of `{"k":Infinity}` raises an `OverflowError`.** -/
theorem infinite_cursor_overflows :
    seekOf halves (PythonType.int.columnType halfFloats) (some (text "eyJrIjpJbmZpbml0eX0"))
        = .error .overflowError
      ∧ ¬ OnlyValueErrors halves (PythonType.int.columnType halfFloats)
        (text "eyJrIjpJbmZpbml0eX0") := by
  have overflows : seekOf halves (PythonType.int.columnType halfFloats)
      (some (text "eyJrIjpJbmZpbml0eX0")) = .error .overflowError := rfl
  refine ⟨overflows, fun only => ?_⟩
  have raised : prepare halves (PythonType.int.columnType halfFloats) 1 1
      (some (text "eyJrIjpJbmZpbml0eX0")) = .error .overflowError := by
    rw [prepare, overflows]
    rfl
  rcases only.paging 1 1 with ⟨e, same, valueError⟩ | ⟨size, last, same⟩
  · rw [raised] at same
    cases same
    cases valueError
  · rw [raised] at same
    cases same

/-- The cursor of `{"k":true}`. -/
example : seekOf halves (PythonType.int.columnType halfFloats) (some (text "eyJrIjp0cnVlfQ"))
    = .error .argumentError := rfl

end PyCommon.Pagination