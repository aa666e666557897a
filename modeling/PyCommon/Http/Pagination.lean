import PyCommon.Lib.Base64
import PyCommon.Lib.JsonTexts

/-!
# Pages and cursors

The envelope of a page and the codec of its cursors: a cursor is the JSON of a payload in
the URL-safe Base64 alphabet, with the padding stripped.

Python's `json` limits the nesting of what it reads and writes, and what it makes of the
literal of a float is a matter of the floats. Both belong to the interpreter, which is a
parameter throughout (`Interpreter`).

A cursor is decoded to the payload of which it was encoded, as far as JSON keeps the payload
(`decode_of_encode`); so it is for one member that is text without surrogates
(`decode_encode_member`). For a payload that `json.loads` reads back, the codec is a bijection
onto text in the URL-safe alphabet (`cursor_round_trip`).
-/

set_option autoImplicit false

namespace PyCommon.Pagination

open CodePoints (Text code text)

/-- What a call can raise here. The first four are a `ValueError`; `conversionError` is one that
`int`, `str` or `UUID` raises, with any message. -/
inductive CursorExc where
  | valueError (message : String)
  | conversionError
  | unicodeEncodeError
  | unicodeDecodeError
  | typeError
  | overflowError
  | zeroDivisionError
  | recursionError
  | memoryError
  /-- The `ArgumentError` of SQLAlchemy. -/
  | argumentError
  deriving DecidableEq

def CursorExc.isValueError : CursorExc → Bool
  | .typeError => false
  | .overflowError => false
  | .zeroDivisionError => false
  | .recursionError => false
  | .memoryError => false
  | .argumentError => false
  | _ => true

def invalidCursor : CursorExc := .valueError "Invalid pagination cursor"

/-- The number of digits that `int` reads and `str` writes, `sys.get_int_max_str_digits()`. -/
def maxStrDigits : ℕ := 4300

/-- What the cursors need of an interpreter: the containers that may be nested in a container,
the floats, and the tables of Unicode. -/
structure Interpreter where
  room : ℕ
  /-- The `repr` of the float that a literal stands for. -/
  float : Text → Text
  /-- `int` of the float with this `repr`. -/
  truncate : Text → Except CursorExc ℤ
  /-- The `repr` of a list or a dictionary. -/
  repr : Json.Value → Text
  /-- The ASCII digit or blank that a code point beyond ASCII stands for in a number. -/
  fold : ℕ → Char

/-! ## The envelope -/

structure PageMeta where
  nextCursor : Option Text := none
  prevCursor : Option Text := none
  hasMore : Bool := false
  offset : Option ℤ := none
  page : Option ℤ := none
  totalItems : Option ℤ := none
  limit : ℤ := 20

structure Page (T : Type*) where
  items : List T
  pageMeta : PageMeta := {}

/-! ## The codec -/

variable (python : Interpreter)

/-- `encode_cursor`. -/
def encodeCursor (payload : List (Text × Json.Value)) : Except CursorExc Text :=
  match Json.write maxStrDigits [code ','] [code ':'] (python.room + 1) (.dict payload) with
  | .error .depth => .error .recursionError
  -- an integer with too many digits, the only other failure of the writer
  | .error _ => .error .conversionError
  | .ok written =>
      match CodePoints.encodeUtf8 written with
      | none => .error .unicodeEncodeError
      | some raw =>
          match CodePoints.decodeUtf8 true (Base64.encode raw) with
          | none => .error .unicodeDecodeError
          | some encoded => .ok (encoded.rdropWhile (· = code '='))

/-- The cursor with its padding, `-len(cursor) % 4` characters. -/
def padded (cursor : Text) : Text :=
  cursor ++ List.replicate (-(cursor.length : ℤ) % 4).toNat (code '=')

/-- `decode_cursor`. -/
def decodeCursor (cursor : Text) : Except CursorExc (List (Text × Json.Value)) :=
  match CodePoints.encodeUtf8 (padded cursor) with
  | none => .error .unicodeEncodeError
  | some encoded =>
      match Base64.decode encoded with
      | none => .error invalidCursor
      | some raw =>
          match Json.load python.float maxStrDigits (python.room + 1) raw with
          | .error .malformed => .error invalidCursor
          | .error .encoding => .error invalidCursor
          | .error .digits => .error .conversionError
          | .error .depth => .error .recursionError
          | .ok (.dict payload) => .ok payload
          | .ok _ => .error invalidCursor

/-! ## What was encoded is decoded -/

variable {python : Interpreter}

theorem rdropWhile_map {α β : Type*} (f : α → β) (p : β → Bool) (l : List α) :
    (l.map f).rdropWhile p = (l.rdropWhile (p ∘ f)).map f := by
  rw [List.rdropWhile, List.rdropWhile, ← List.map_reverse, List.dropWhile_map, List.map_reverse]

/-- The text of the symbols of a byte string is its encoding without padding. -/
theorem rdropWhile_encode (raw : List UInt8) :
    ((Base64.encode raw).map UInt8.toNat).rdropWhile (· = code '=')
      = (Base64.symbols raw).map UInt8.toNat := by
  have same : (fun c : ℕ => decide (c = code '=')) ∘ UInt8.toNat = fun c => c = Base64.pad := by
    funext c
    exact decide_eq_decide.mpr (UInt8.toNat_inj (b := Base64.pad))
  rw [rdropWhile_map, same, Base64.rdropWhile_encode]

/-- The padding that was stripped is added again. -/
theorem padded_symbols (raw : List UInt8) :
    padded ((Base64.symbols raw).map UInt8.toNat) = (Base64.encode raw).map UInt8.toNat := by
  have count : (-((Base64.symbols raw).length : ℤ) % 4).toNat
      = (4 - (Base64.symbols raw).length % 4) % 4 := by omega
  rw [padded, List.length_map, count, Base64.encode, Base64.padding, List.map_append,
    List.map_replicate]
  rfl

/-- The cursor of a payload whose JSON is ASCII: the symbols of its bytes. -/
theorem encodeCursor_of_write {payload : List (Text × Json.Value)} {written : Text}
    (writes : Json.write maxStrDigits [code ','] [code ':'] (python.room + 1) (.dict payload)
      = .ok written)
    (ascii : ∀ c ∈ written, c < 0x80) :
    encodeCursor python payload
      = .ok ((Base64.symbols (written.map UInt8.ofNat)).map UInt8.toNat) := by
  have encoded := CodePoints.encodeUtf8_ascii ascii
  have plain : ∀ b ∈ Base64.encode (written.map UInt8.ofNat), b < 0x80 := fun b =>
    Base64.lt_of_mem_encode
  simp only [encodeCursor, writes, encoded, CodePoints.decodeUtf8_ascii true plain,
    rdropWhile_encode]

/-- The symbols of the bytes of an object are decoded to what is loaded of the bytes. -/
theorem decodeCursor_symbols {raw : List UInt8} {loaded : List (Text × Json.Value)}
    (loads : Json.load python.float maxStrDigits (python.room + 1) raw = .ok (.dict loaded)) :
    decodeCursor python ((Base64.symbols raw).map UInt8.toNat) = .ok loaded := by
  have units : ∀ c ∈ (Base64.encode raw).map UInt8.toNat, c < 0x80 := by
    intro c member
    obtain ⟨b, inside, rfl⟩ := List.mem_map.mp member
    exact UInt8.lt_iff_toNat_lt.mp (Base64.lt_of_mem_encode inside)
  have bytes : ((Base64.encode raw).map UInt8.toNat).map UInt8.ofNat = Base64.encode raw := by
    have back : UInt8.ofNat ∘ UInt8.toNat = id := by
      funext b
      exact UInt8.ofNat_toNat
    rw [List.map_map, back, List.map_id]
  simp only [decodeCursor, padded_symbols, CodePoints.encodeUtf8_ascii units, bytes,
    Base64.decode_encode, loads]

/-- **A cursor is decoded to what JSON keeps of its payload.** -/
theorem decode_of_encode {payload : List (Text × Json.Value)} {written : Text}
    (writes : Json.write maxStrDigits [code ','] [code ':'] (python.room + 1) (.dict payload)
      = .ok written)
    (ascii : ∀ c ∈ written, c < 0x80) {loaded : List (Text × Json.Value)}
    (loads : Json.load python.float maxStrDigits (python.room + 1) (written.map UInt8.ofNat)
      = .ok (.dict loaded)) :
    ∃ cursor, encodeCursor python payload = .ok cursor
      ∧ decodeCursor python cursor = .ok loaded :=
  ⟨_, encodeCursor_of_write writes ascii, decodeCursor_symbols loads⟩

/-- **A cursor of one member that is text is decoded to it**, with its pairs joined. -/
theorem decode_encode_text {name content : Text} (named : ∀ c ∈ name, CodePoints.isScalar c)
    (valid : ∀ c ∈ content, c < 0x110000) :
    ∃ cursor, encodeCursor python [(name, .str content)] = .ok cursor
      ∧ decodeCursor python cursor = .ok [(name, .str (CodePoints.joinPairs content))] := by
  obtain ⟨written, writes, ascii, loads⟩ :=
    Json.load_write_member named valid [code ',']
  exact decode_of_encode writes ascii loads

/-- Text without surrogates comes back as it is. -/
theorem decode_encode_member {name content : Text} (named : ∀ c ∈ name, CodePoints.isScalar c)
    (scalar : ∀ c ∈ content, CodePoints.isScalar c) :
    ∃ cursor, encodeCursor python [(name, .str content)] = .ok cursor
      ∧ decodeCursor python cursor = .ok [(name, .str content)] := by
  obtain ⟨cursor, encoded, decoded⟩ : ∃ cursor,
      encodeCursor python [(name, .str content)] = .ok cursor
        ∧ decodeCursor python cursor = .ok [(name, .str (CodePoints.joinPairs content))] :=
    decode_encode_text named fun c member => Json.lt_of_isScalar (scalar c member)
  rw [Json.joinPairs_of_scalar scalar] at decoded
  exact ⟨cursor, encoded, decoded⟩

/-! ## The codec is a bijection -/

/-- The characters of the URL-safe Base64 alphabet. -/
def urlSafe : Text :=
  text "ABCDEFGHIJKLMNOPQRSTUVWXYZabcdefghijklmnopqrstuvwxyz0123456789-_"

theorem symbol_mem_urlSafe (n : ℕ) : (Base64.symbol n).toNat ∈ urlSafe := by
  have each : ∀ n < 63, (Base64.symbol n).toNat ∈ urlSafe := by decide
  rcases Nat.lt_or_ge n 63 with small | large
  · exact each n small
  · rw [Base64.symbol_of_le large]
    decide

theorem mem_urlSafe_of_symbols {raw : List UInt8} {c : ℕ}
    (member : c ∈ (Base64.symbols raw).map UInt8.toNat) : c ∈ urlSafe := by
  obtain ⟨b, inside, rfl⟩ := List.mem_map.mp member
  obtain ⟨n, rfl⟩ := Base64.exists_of_mem_symbols inside
  exact symbol_mem_urlSafe n

/-- What is required of the codec on one payload: its cursor is made of URL-safe characters
without padding and is decoded to the payload, of which it is encoded again. -/
structure RoundTrips (python : Interpreter) (payload : List (Text × Json.Value)) (cursor : Text) :
    Prop where
  encodes : encodeCursor python payload = .ok cursor
  decodes : decodeCursor python cursor = .ok payload
  urlSafe : ∀ c ∈ cursor, c ∈ urlSafe
  unpadded : code '=' ∉ cursor
  encodes_decoded : ∀ decoded, decodeCursor python cursor = .ok decoded →
    encodeCursor python decoded = .ok cursor

/-- **The codec round trip.** A payload that `json.dumps` writes and `json.loads` reads back is
encoded, and its cursor decoded. -/
theorem cursor_round_trip {payload : List (Text × Json.Value)} {written : Text}
    (floats : (Json.Value.dict payload).AllFloats Json.Ascii)
    (writes : Json.write maxStrDigits [code ','] [code ':'] (python.room + 1) (.dict payload)
      = .ok written)
    (inverts : Json.loads python.float maxStrDigits (python.room + 1) written
      = .ok (.dict payload)) :
    ∃ cursor, RoundTrips python payload cursor := by
  have ascii : Json.Ascii written := Json.write_ascii (by decide) (by decide) _ floats writes
  obtain ⟨b, rest, begins, nonzero⟩ := Json.write_dict_begins writes
  have loads : Json.load python.float maxStrDigits (python.room + 1) (written.map UInt8.ofNat)
      = .ok (.dict payload) := by
    rw [← inverts]
    subst begins
    exact Json.load_of_ascii ascii nonzero
  have encoded := encodeCursor_of_write writes ascii
  have decoded := decodeCursor_symbols loads
  refine ⟨_, encoded, decoded, fun c => mem_urlSafe_of_symbols, ?_, ?_⟩
  · intro member
    exact absurd (mem_urlSafe_of_symbols member) (by decide)
  · intro again same
    obtain rfl := Except.ok.inj (decoded.symm.trans same)
    exact encoded

/-- An interpreter with room for three nested containers. -/
def shallow : Interpreter where
  room := 2
  float literal := literal
  truncate _ := .error .conversionError
  repr _ := []
  fold _ := ' '

/-- A payload with a string, an integer and a list in it. -/
theorem mixed_round_trip :
    ∃ cursor, RoundTrips shallow
      [(text "k", .str (text "a/b")), (text "n", .list [.int (-12), .null])] cursor := by
  refine cursor_round_trip ?_ rfl ?_
  · exact ⟨trivial, ⟨trivial, trivial, trivial⟩, trivial⟩
  · rfl

end PyCommon.Pagination
