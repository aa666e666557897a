import Mathlib.Algebra.Group.Int.Defs
import Mathlib.Data.List.Sort
import PyCommon.Http.Pagination

/-!
# Pages of a statement

`paginate_offset` and `paginate_cursor` over a session and a statement: the rows of a statement
are those of the snapshot that the query reads, and the database evaluates the seek predicate,
the order and the limit on it. A page by offset replaces the limit and the offset that the
statement has of its own, and counts the rows that it returns with them.

The key column has a Python type, which decides how the value in a cursor is taken back
(`_coerce_key`). `int`, `str` and `uuid.UUID` are modelled, each as the conversions that are
made with it (`ColumnType`).
-/

set_option autoImplicit false

namespace PyCommon.Pagination

open CodePoints (Text code text)

variable (python : Interpreter)

/-! ## Python's conversions -/

/-- `str` of a JSON value. -/
def pyStr : Json.Value → Except CursorExc Text
  | .null => .ok (text "None")
  | .bool b => .ok (if b then text "True" else text "False")
  | .int n =>
      match Json.writeInt maxStrDigits n with
      | some written => .ok written
      | none => .error .conversionError
  | .float repr => .ok repr
  | .str content => .ok content
  | .list items => .ok (python.repr (.list items))
  | .dict members => .ok (python.repr (.dict members))

/-- The ASCII characters of a text in which a number is read. -/
def asciiDigits (content : Text) : List Char :=
  content.map fun c => if c < 0x80 then Char.ofNat c else python.fold c

/-- `int` of a JSON value that is no `int`. -/
def pyInt : Json.Value → Except CursorExc ℤ
  | .str content =>
      match Numerals.parse maxStrDigits (asciiDigits python content) with
      | some n => .ok n
      | none => .error .conversionError
  | .float repr => python.truncate repr
  | _ => .error .typeError

/-- `text.replace(pattern, "")`, from where `skip` more characters of an occurrence are left. -/
def removeFrom (pattern : Text) : ℕ → Text → Text
  | _, [] => []
  | skip + 1, _ :: rest => removeFrom pattern skip rest
  | 0, c :: rest =>
      if pattern.isPrefixOf (c :: rest) then removeFrom pattern (pattern.length - 1) rest
      else c :: removeFrom pattern 0 rest

def remove (pattern content : Text) : Text := removeFrom pattern 0 content

def isBrace (c : ℕ) : Bool := c = code '{' || c = code '}'

/-- A `uuid.UUID`, as its 128 bits. -/
abbrev UUID := Fin (2 ^ 128)

/-- `UUID(text)`. -/
def uuidOf (content : Text) : Except CursorExc UUID :=
  let bare := remove (text "uuid:") (remove (text "urn:") content)
  let hex := ((bare.dropWhile isBrace).rdropWhile isBrace).filter (· ≠ code '-')
  if hex.length ≠ 32 then .error .conversionError
  else
    match Numerals.parseHex (asciiDigits python hex) with
    | none => .error .conversionError
    | some n =>
        if small : 0 ≤ n ∧ n < 2 ^ 128 then .ok ⟨n.toNat, by omega⟩ else .error .conversionError

/-- `str` of a UUID: its digits in groups. -/
def uuidText (u : UUID) : Text :=
  let hex := (Numerals.printHex 32 u.val).map code
  hex.take 8 ++ code '-' :: (hex.drop 8).take 4 ++ code '-' :: (hex.drop 12).take 4
    ++ code '-' :: (hex.drop 16).take 4 ++ code '-' :: hex.drop 20

/-! ## Key columns -/

/-- What `_coerce_key` returns: a value of the column's type, or a `bool`, which is an instance of
`int` and is returned as it is. -/
inductive KeyValue (Value : Type*) where
  | value (value : Value)
  | bool (b : Bool)

/-- The Python type of a column, as far as cursors use it. -/
structure ColumnType (Value : Type*) where
  /-- The value itself, where it is an instance of the type. -/
  isInstance : Json.Value → Option (KeyValue Value)
  convert : Json.Value → Except CursorExc Value
  /-- `str` of a value of the type. -/
  str : Value → Except CursorExc Text

/-- `int`, of which `bool` is a subclass. -/
def intType : ColumnType ℤ where
  isInstance
    | .int n => some (.value n)
    | .bool b => some (.bool b)
    | _ => none
  convert := pyInt python
  str n := pyStr python (.int n)

def strType : ColumnType Text where
  isInstance
    | .str content => some (.value content)
    | _ => none
  convert := pyStr python
  str := .ok

def uuidType : ColumnType UUID where
  isInstance _ := none
  convert raw := pyStr python raw >>= uuidOf python
  str u := .ok (uuidText u)

/-- `_coerce_key`. -/
def coerceKey {Value : Type*} (column : ColumnType Value) (raw : Json.Value) :
    Except CursorExc (KeyValue Value) :=
  match column.isInstance raw with
  | some value => .ok value
  | none =>
      match column.convert raw with
      | .ok value => .ok (.value value)
      | .error e => .error (if e = .typeError ∨ e.isValueError then invalidCursor else e)

/-! ## A page by offset -/

/-- `_clamp`. -/
def clamp (limit maxLimit : ℤ) : Except CursorExc ℤ :=
  if limit < 1 then .error (.valueError "limit must be >= 1") else .ok (min limit maxLimit)

/-- `rows[:stop]`. -/
def sliceTo {Row : Type*} (rows : List Row) (stop : ℤ) : List Row :=
  rows.take (if 0 ≤ stop then stop else rows.length + stop).toNat

/-- A statement: the order of the rows that it selects, and its own clauses. -/
structure Statement (Row : Type) where
  /-- `ORDER BY` allows the first row before the second. -/
  comesFirst : Row → Row → Prop
  limitClause : Option ℤ := none
  offsetClause : Option ℤ := none

/-- What the clauses leave of the selected rows. -/
def Statement.window {Row : Type} (stmt : Statement Row) (rows : List Row) : List Row :=
  let rest := rows.drop (stmt.offsetClause.getD 0).toNat
  match stmt.limitClause with
  | none => rest
  | some count => rest.take count.toNat

/-- `paginate_offset`. The rows that the statement selects are `selected`, and the query of the
page finds them in the order `arranged`. -/
def paginateOffset {Row : Type} (stmt : Statement Row) (selected arranged : List Row)
    (limit offset maxLimit : ℤ) (withTotal : Bool) : Except CursorExc (Page Row) := do
  let limit ← clamp limit maxLimit
  if offset < 0 then .error (.valueError "offset must be >= 0")
  else
    -- the count is over the statement as it is, with any clauses of its own
    let totalItems : Option ℤ := if withTotal then some (stmt.window selected).length else none
    let query := { stmt with limitClause := some (limit + 1), offsetClause := some offset }
    let rows := query.window arranged
    let hasMore : Bool := limit < rows.length
    let items := sliceTo rows limit
    if limit = 0 then .error .zeroDivisionError
    else
      let page := some (offset.fdiv limit + 1)
      return { items, pageMeta := { limit, offset := some offset, page, totalItems, hasMore } }

/-! ## A page by cursor -/

section Query

variable {Row Value : Type} [LinearOrder Value]

/-- What the expression `key_column < last_key` or `key_column > last_key` compares with.
SQLAlchemy has no such expression for `True` and `False`. -/
def compared : KeyValue Value → Except CursorExc Value
  | .value value => .ok value
  | .bool _ => .error .argumentError

/-- The seek predicate, `key_column < last_key` or `key_column > last_key`. -/
def seekPredicate (descending : Bool) (last value : Value) : Bool :=
  if descending then value < last else value > last

/-- The order of the statement. -/
def comesFirst (descending : Bool) (first second : Value) : Bool :=
  if descending then first ≥ second else first ≤ second

/-- The rows that the query returns from a snapshot of at most `count`. A negative count never
occurs with `max_limit >= 1`. -/
def execute (key : Row → Value) (descending : Bool) (seek : Option Value) (count : ℤ)
    (snapshot : List Row) : List Row :=
  let selected :=
    match seek with
    | none => snapshot
    | some last => snapshot.filter fun row => seekPredicate descending last (key row)
  (selected.insertionSort fun first second => comesFirst descending (key first) (key second)).take
    count.toNat

/-- The value after which the query seeks. An empty cursor counts as none. -/
def seekOf (column : ColumnType Value) : Option Text → Except CursorExc (Option Value)
  | none => .ok none
  | some [] => .ok none
  | some (c :: cursor) => do
      let payload ← decodeCursor python (c :: cursor)
      match payload.lookup (text "k") with
      | none => .error invalidCursor
      | some raw => do
          let last ← coerceKey column raw >>= compared
          return some last

/-- The cursor of the page after these items. -/
def cursorAfter (column : ColumnType Value) (key : Row → Value) (items : List Row) :
    Except CursorExc (Option Text) :=
  match items.getLast? with
  | none => .ok none
  | some last => do
      let content ← column.str (key last)
      let cursor ← encodeCursor python [(text "k", .str content)]
      return some cursor

/-- `paginate_cursor`. -/
def paginateCursor (column : ColumnType Value) (key : Row → Value) (snapshot : List Row)
    (limit : ℤ) (cursor : Option Text) (descending : Bool) (maxLimit : ℤ) :
    Except CursorExc (Page Row) := do
  let limit ← clamp limit maxLimit
  let seek ← seekOf python column cursor
  let rows := execute key descending seek (limit + 1) snapshot
  let hasMore : Bool := limit < rows.length
  let items := sliceTo rows limit
  let nextCursor ← if hasMore then cursorAfter python column key items else .ok none
  return { items, pageMeta := { limit, nextCursor, hasMore } }

end Query

end PyCommon.Pagination
