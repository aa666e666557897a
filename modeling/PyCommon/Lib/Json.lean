import PyCommon.Lib.CodePoints
import PyCommon.Lib.Numerals

/-!
# JSON texts

JSON as Python's `json` writes and reads it. The writer escapes all that is not printable
ASCII, code points beyond `0xFFFF` as surrogate pairs. The reader takes bytes in any of the
Unicode encodings, and beside JSON the literals `NaN` and `Infinity`; of two members of one
name the last counts; it limits the digits of an integer and the depth of nesting.

A float is given by its `repr`, and what `repr` the float of a literal has is a parameter.

The writer's text of a string is read back (`piecesOf`, `readString_flatMap`), but for its
surrogates: two escaped surrogates that are a pair are read as one character.
-/

set_option autoImplicit false

namespace Json

open CodePoints (Text code text hexEscape ascii_of_mem_hexEscape)

inductive Value where
  | null
  | bool (b : Bool)
  | int (n : ℤ)
  | float (repr : Text)
  | str (content : Text)
  | list (items : List Value)
  | dict (members : List (Text × Value))

/-- Why a value is not read or not written: the text is no JSON, the bytes are no text, an
integer has too many digits, or the nesting is too deep. -/
inductive Failure where
  | malformed
  | encoding
  | digits
  | depth
  deriving DecidableEq

/-! ## Writing -/

/-- The letters of the short escapes, and what they stand for. -/
def shortEscapes : List (ℕ × ℕ) :=
  [(code '"', code '"'), (code '\\', code '\\'), (code 'n', 10), (code 'r', 13), (code 't', 9),
    (code 'f', 12), (code 'b', 8)]

def letterOf (c : ℕ) : Option ℕ := (shortEscapes.find? fun escape => escape.2 = c).map Prod.fst

/-- What is written for a code point. -/
def escape (c : ℕ) : Text :=
  match letterOf c with
  | some letter => [code '\\', letter]
  | none =>
      if 0x20 ≤ c ∧ c < 0x7F then [c]
      else if c < 0x10000 then hexEscape 'u' 4 c
      else hexEscape 'u' 4 (CodePoints.high c) ++ hexEscape 'u' 4 (CodePoints.low c)

def writeString (content : Text) : Text := code '"' :: content.flatMap escape ++ [code '"']

/-- What is written for a float. -/
def writeFloat (repr : Text) : Text :=
  if repr = text "nan" then text "NaN"
  else if repr = text "inf" then text "Infinity"
  else if repr = text "-inf" then text "-Infinity"
  else repr

/-- The decimal text of an integer, which has at most `limit` digits. -/
def writeInt (limit : ℕ) (n : ℤ) : Option Text :=
  if (Nat.toDigits 10 n.natAbs).length ≤ limit then some ((Numerals.print n).map code) else none

section Writer

variable (limit : ℕ) (comma colon : Text)

mutual
/-- Write a value in which containers are nested at most `room` deep. -/
def write (room : ℕ) : Value → Except Failure Text
  | .null => .ok (text "null")
  | .bool b => .ok (if b then text "true" else text "false")
  | .int n => match writeInt limit n with
      | some written => .ok written
      | none => .error .digits
  | .float repr => .ok (writeFloat repr)
  | .str content => .ok (writeString content)
  | .list items => match room with
      | 0 => .error .depth
      | room + 1 => do
          let written ← writeItems room items
          return code '[' :: written ++ [code ']']
  | .dict members => match room with
      | 0 => .error .depth
      | room + 1 => do
          let written ← writeMembers room members
          return code '{' :: written ++ [code '}']

def writeItems (room : ℕ) : List Value → Except Failure Text
  | [] => .ok []
  | item :: rest => do
      let first ← write room item
      let later ← writeItems room rest
      return first ++ (if rest.isEmpty then [] else comma) ++ later

def writeMembers (room : ℕ) : List (Text × Value) → Except Failure Text
  | [] => .ok []
  | (name, value) :: rest => do
      let first ← write room value
      let later ← writeMembers room rest
      return writeString name ++ colon ++ first ++ (if rest.isEmpty then [] else comma) ++ later
end

end Writer

/-! ## Reading -/

def isBlank (c : ℕ) : Bool := c = 0x20 || c = 0x09 || c = 0x0A || c = 0x0D

def skip (input : Text) : Text := input.dropWhile isBlank

/-- What a short escape stands for; a solidus may be escaped, though it never is. -/
def unescape (letter : ℕ) : Option ℕ :=
  if letter = code '/' then some letter else shortEscapes.lookup letter

/-- The unit that four hexadecimal digits stand for. -/
def hexUnit (digits : Text) : Option ℕ := Numerals.hexFrom 0 (digits.map Char.ofNat)

/-- Add a piece to those read after it. -/
def addPiece (piece : ℕ × Bool) :
    Except Failure (List (ℕ × Bool) × Text) → Except Failure (List (ℕ × Bool) × Text)
  | .ok (later, rest) => .ok (piece :: later, rest)
  | .error e => .error e

/-- What an escape stands for, after its backslash. An escaped unit may be half of a
surrogate pair. -/
def readEscape : Text → Option ((ℕ × Bool) × Text)
  | [] => none
  | letter :: rest =>
      if letter = code 'u' then
        match rest with
        | a :: b :: c :: d :: rest => (hexUnit [a, b, c, d]).map fun unit => ((unit, true), rest)
        | _ => none
      else (unescape letter).map fun point => ((point, false), rest)

def readPiece (c : ℕ) (rest : Text) : Option ((ℕ × Bool) × Text) :=
  if c = code '\\' then readEscape rest
  else if c < 0x20 then none
  else some ((c, false), rest)

/-- The pieces of a string up to its closing quote, fewer than `fuel`, and the text after it. -/
def readPieces : ℕ → Text → Except Failure (List (ℕ × Bool) × Text)
  | _, [] => .error .malformed
  | 0, _ :: _ => .error .malformed
  | fuel + 1, c :: rest =>
      if c = code '"' then .ok ([], rest)
      else
        match readPiece c rest with
        | some (piece, rest) => addPiece piece (readPieces fuel rest)
        | none => .error .malformed

/-- A string after its opening quote. -/
def readString (input : Text) : Except Failure (Text × Text) := do
  let (pieces, rest) ← readPieces input.length input
  return (CodePoints.join pieces, rest)

def isDigit (c : ℕ) : Bool := code '0' ≤ c && c ≤ code '9'

def signPart : Text → Text × Text
  | [] => ([], [])
  | c :: rest => if c = code '-' then ([c], rest) else ([], c :: rest)

/-- The digits of a number before its point. -/
def wholePart : Text → Option (Text × Text)
  | [] => none
  | c :: rest =>
      if c = code '0' then some ([c], rest)
      else if isDigit c then some (c :: rest.takeWhile isDigit, rest.dropWhile isDigit)
      else none

def fractionPart (input : Text) : Text × Text :=
  match input with
  | point :: digit :: rest =>
      if point = code '.' ∧ isDigit digit then
        (point :: digit :: rest.takeWhile isDigit, rest.dropWhile isDigit)
      else ([], input)
  | _ => ([], input)

def exponentPart (input : Text) : Text × Text :=
  match input with
  | letter :: sign :: rest =>
      if letter = code 'e' ∨ letter = code 'E' then
        if isDigit sign then
          (letter :: sign :: rest.takeWhile isDigit, rest.dropWhile isDigit)
        else if (sign = code '+' ∨ sign = code '-') ∧ (rest.head?.any isDigit) then
          (letter :: sign :: rest.takeWhile isDigit, rest.dropWhile isDigit)
        else ([], input)
      else ([], input)
  | _ => ([], input)

section Reader

variable (float : Text → Text) (limit : ℕ)

/-- The value of the literal of a number. -/
def numberValue (sign whole fraction exponent : Text) : Except Failure Value :=
  if fraction = [] ∧ exponent = [] then
    match Numerals.parse limit ((sign ++ whole).map Char.ofNat) with
    | some n => .ok (.int n)
    | none => .error .digits
  else .ok (.float (float (sign ++ whole ++ fraction ++ exponent)))

def readNumber (input : Text) : Except Failure (Value × Text) :=
  let (sign, unsigned) := signPart input
  match wholePart unsigned with
  | some (whole, rest) => do
      let (fraction, rest) := fractionPart rest
      let (exponent, rest) := exponentPart rest
      let value ← numberValue float limit sign whole fraction exponent
      return (value, rest)
  | none => .error .malformed

/-- The literals that are words. -/
def words : List (Text × Value) :=
  [(text "null", .null), (text "true", .bool true), (text "false", .bool false),
    (text "NaN", .float (text "nan")), (text "Infinity", .float (text "inf")),
    (text "-Infinity", .float (text "-inf"))]

/-- Read a value that is no container. -/
def readScalar (input : Text) : Except Failure (Value × Text) :=
  if input.head? = some (code '"') then do
    let (content, rest) ← readString (input.drop 1)
    return (.str content, rest)
  else
    match words.find? fun word => word.1.isPrefixOf input with
    | some word => .ok (word.2, input.drop word.1.length)
    | none => readNumber float limit input

/-- Set a member; one that is there keeps its place. -/
def setMember (name : Text) (value : Value) : List (Text × Value) → List (Text × Value)
  | [] => [(name, value)]
  | member :: rest =>
      if member.1 = name then (name, value) :: rest else member :: setMember name value rest

section Containers

variable (item : Text → Except Failure (Value × Text))

/-- Read the items of a list, at most `fuel` of them, up to the closing bracket. -/
def readItems : ℕ → Text → Except Failure (List Value × Text)
  | 0, _ => .error .malformed
  | fuel + 1, input => do
      let (value, rest) ← item input
      match skip rest with
      | [] => .error .malformed
      | c :: rest =>
          if c = code ']' then return ([value], rest)
          else if c = code ',' then
            let (later, rest) ← readItems fuel (skip rest)
            return (value :: later, rest)
          else .error .malformed

/-- Read the members of an object after those of `found`, at most `fuel` of them, up to the
closing brace. -/
def readMembers : ℕ → List (Text × Value) → Text → Except Failure (List (Text × Value) × Text)
  | 0, _, _ => .error .malformed
  | _ + 1, _, [] => .error .malformed
  | fuel + 1, found, quote :: input =>
      if quote = code '"' then do
        let (name, rest) ← readString input
        match skip rest with
        | [] => .error .malformed
        | colon :: rest =>
            if colon = code ':' then
              let (value, rest) ← item (skip rest)
              match skip rest with
              | [] => .error .malformed
              | c :: rest =>
                  if c = code '}' then return (setMember name value found, rest)
                  else if c = code ',' then
                    readMembers fuel (setMember name value found) (skip rest)
                  else .error .malformed
            else .error .malformed
      else .error .malformed

/-- A list after its opening bracket. -/
def readList (input : Text) : Except Failure (Value × Text) :=
  if (skip input).head? = some (code ']') then .ok (.list [], (skip input).drop 1)
  else do
    let (items, rest) ← readItems item input.length (skip input)
    return (.list items, rest)

/-- An object after its opening brace. -/
def readDict (input : Text) : Except Failure (Value × Text) :=
  if (skip input).head? = some (code '}') then .ok (.dict [], (skip input).drop 1)
  else do
    let (members, rest) ← readMembers item input.length [] (skip input)
    return (.dict members, rest)

end Containers

/-- Read a value in which containers are nested at most `room` deep. -/
def readValue : ℕ → Text → Except Failure (Value × Text)
  | _, [] => .error .malformed
  | 0, c :: rest =>
      if c = code '{' ∨ c = code '[' then .error .depth else readScalar float limit (c :: rest)
  | room + 1, c :: rest =>
      if c = code '{' then readDict (readValue room) rest
      else if c = code '[' then readList (readValue room) rest
      else readScalar float limit (c :: rest)

end Reader

/-! ## Digits -/

theorem isDigit_iff {c : ℕ} : isDigit c = true ↔ 48 ≤ c ∧ c ≤ 57 := by
  rw [isDigit, Bool.and_eq_true, decide_eq_true_iff, decide_eq_true_iff]
  rfl

theorem isDigit_code {c : Char} (digit : c.isDigit) : isDigit (code c) = true := by
  have bounds : 48 ≤ c.toNat ∧ c.toNat ≤ 57 := by
    simpa [Char.isDigit, UInt32.le_iff_toNat_le] using digit
  exact isDigit_iff.mpr bounds

theorem isDigit_ascii {c : ℕ} (digit : isDigit c = true) : c < 0x80 :=
  Nat.lt_of_le_of_lt (isDigit_iff.mp digit).2 (by decide)

theorem ascii_of_mem_print {n : ℤ} {c : Char} (member : c ∈ Numerals.print n) : code c < 0x80 := by
  have digits : ∀ k : ℕ, c ∈ Nat.toDigits 10 k → code c < 0x80 := fun k inside =>
    isDigit_ascii (isDigit_code (Numerals.isDigit_of_mem_toDigits inside))
  cases n with
  | ofNat n => exact digits n member
  | negSucc n =>
      rcases List.mem_cons.mp member with rfl | inside
      · decide
      · exact digits (n + 1) inside

/-! ## Bytes -/

/-- The encoding of a JSON text is told from its first bytes. -/
def decodeBytes (raw : List UInt8) : Option Text :=
  match raw with
  | 0x00 :: 0x00 :: 0xFE :: 0xFF :: rest => CodePoints.decodeUtf32 false rest
  | 0xFF :: 0xFE :: 0x00 :: 0x00 :: rest => CodePoints.decodeUtf32 true rest
  | 0xFE :: 0xFF :: rest => CodePoints.decodeUtf16 false rest
  | 0xFF :: 0xFE :: rest => CodePoints.decodeUtf16 true rest
  | 0xEF :: 0xBB :: 0xBF :: rest => CodePoints.decodeUtf8 false rest
  | [a, b] =>
      if a = 0 then CodePoints.decodeUtf16 false raw
      else if b = 0 then CodePoints.decodeUtf16 true raw
      else CodePoints.decodeUtf8 false raw
  | a :: b :: c :: d :: _ =>
      if a = 0 then
        if b = 0 then CodePoints.decodeUtf32 false raw else CodePoints.decodeUtf16 false raw
      else if b = 0 then
        if c = 0 ∧ d = 0 then CodePoints.decodeUtf32 true raw else CodePoints.decodeUtf16 true raw
      else CodePoints.decodeUtf8 false raw
  | _ => CodePoints.decodeUtf8 false raw

/-- Read the only value of a text. -/
def load (float : Text → Text) (limit room : ℕ) (raw : List UInt8) : Except Failure Value :=
  match decodeBytes raw with
  | none => .error .encoding
  | some input => do
      let (value, rest) ← readValue float limit room (skip input)
      if skip rest = [] then return value else .error .malformed

/-! ## A string is read back -/

/-- The pieces that are read from what is written for a code point. -/
def piecesOf (c : ℕ) : List (ℕ × Bool) :=
  match letterOf c with
  | some _ => [(c, false)]
  | none =>
      if 0x20 ≤ c ∧ c < 0x7F then [(c, false)]
      else if c < 0x10000 then [(c, true)]
      else [(CodePoints.high c, true), (CodePoints.low c, true)]

theorem of_letterOf {c letter : ℕ} (short : letterOf c = some letter) :
    unescape letter = some c ∧ letter ≠ code 'u' ∧ letter < 0x80 := by
  have each : ∀ escape ∈ shortEscapes,
      unescape escape.1 = some escape.2 ∧ escape.1 ≠ code 'u' ∧ escape.1 < 0x80 := by decide
  obtain ⟨escape, found, rfl⟩ := Option.map_eq_some_iff.mp short
  have same : escape.2 = c := by simpa using List.find?_some found
  rw [← same]
  exact each escape (List.mem_of_find?_eq_some found)

theorem ne_of_letterOf_eq_none {c : ℕ} (long : letterOf c = none) :
    c ≠ code '"' ∧ c ≠ code '\\' := by
  constructor <;> rintro rfl <;> cases long

theorem hexUnit_printHex {n : ℕ} (small : n < 0x10000) :
    hexUnit ((Numerals.printHex 4 n).map code) = some n := by
  have read := Numerals.hexFrom_printHex (show n < 16 ^ 4 from small) 0
  rw [Nat.zero_mul, Nat.zero_add] at read
  rw [hexUnit, CodePoints.map_ofNat_code, read]

/-- Text that begins a piece, and what is left when it was read. -/
def Begins (piece : ℕ × Bool) (input rest : Text) : Prop :=
  ∃ c later, input = c :: later ∧ c ≠ code '"' ∧ readPiece c later = some (piece, rest)

theorem Begins.readPieces {piece : ℕ × Bool} {input rest : Text} (begins : Begins piece input rest)
    (fuel : ℕ) : readPieces (fuel + 1) input = addPiece piece (Json.readPieces fuel rest) := by
  obtain ⟨c, later, rfl, quote, read⟩ := begins
  rw [Json.readPieces, if_neg quote, read]

theorem begins_letter {letter point : ℕ} (rest : Text) (long : letter ≠ code 'u')
    (known : unescape letter = some point) :
    Begins (point, false) (code '\\' :: letter :: rest) rest := by
  refine ⟨_, _, rfl, by decide, ?_⟩
  simp only [readPiece, readEscape, if_true, if_neg long, known, Option.map_some]

theorem begins_hexEscape {unit : ℕ} (rest : Text) (small : unit < 0x10000) :
    Begins (unit, true) (hexEscape 'u' 4 unit ++ rest) rest := by
  have read := hexUnit_printHex small
  obtain ⟨a, b, c, d, shape⟩ : ∃ a b c d, (Numerals.printHex 4 unit).map code = [a, b, c, d] :=
    ⟨_, _, _, _, rfl⟩
  rw [shape] at read
  rw [hexEscape, shape]
  refine ⟨code '\\', code 'u' :: a :: b :: c :: d :: rest, rfl, by decide, ?_⟩
  simp only [readPiece, readEscape, if_true, read, Option.map_some]

theorem begins_plain {c : ℕ} (rest : Text) (quote : c ≠ code '"') (slash : c ≠ code '\\')
    (printable : 0x20 ≤ c) : Begins (c, false) (c :: rest) rest := by
  refine ⟨c, rest, rfl, quote, ?_⟩
  rw [readPiece, if_neg slash, if_neg (Nat.not_lt_of_le printable)]

/-- What is written for a code point is read as its pieces. -/
theorem readPieces_escape {c : ℕ} (valid : c < 0x110000) (rest : Text) (fuel : ℕ) :
    readPieces (fuel + (piecesOf c).length) (escape c ++ rest)
      = (piecesOf c).foldr addPiece (readPieces fuel rest) := by
  unfold escape piecesOf
  cases short : letterOf c with
  | some letter =>
      obtain ⟨known, long, -⟩ := of_letterOf short
      exact (begins_letter rest long known).readPieces fuel
  | none =>
      obtain ⟨quote, slash⟩ := ne_of_letterOf_eq_none short
      by_cases printable : 0x20 ≤ c ∧ c < 0x7F
      · simp only [if_pos printable]
        exact (begins_plain rest quote slash printable.1).readPieces fuel
      · simp only [if_neg printable]
        by_cases small : c < 0x10000
        · simp only [if_pos small]
          exact (begins_hexEscape rest small).readPieces fuel
        · have first : CodePoints.high c < 0x10000 := by
            unfold CodePoints.high
            omega
          have second : CodePoints.low c < 0x10000 := by
            unfold CodePoints.low
            omega
          simp only [if_neg small, List.append_assoc]
          have one := (begins_hexEscape (hexEscape 'u' 4 (CodePoints.low c) ++ rest)
            first).readPieces
          have two := (begins_hexEscape rest second).readPieces
          exact (one (fuel + 1)).trans (congrArg (addPiece _) (two fuel))

theorem readPieces_flatMap {content : Text} (valid : ∀ c ∈ content, c < 0x110000) (rest : Text)
    (fuel : ℕ) :
    readPieces (fuel + 1 + (content.flatMap piecesOf).length)
        (content.flatMap escape ++ code '"' :: rest)
      = .ok (content.flatMap piecesOf, rest) := by
  induction content with
  | nil => simp only [List.flatMap_nil, List.nil_append, List.length_nil, readPieces, if_true]
  | cons c content ih =>
      have first := valid c List.mem_cons_self
      have later := ih fun c member => valid c (List.mem_cons_of_mem _ member)
      rw [List.flatMap_cons, List.flatMap_cons, List.append_assoc, List.length_append,
        Nat.add_comm (piecesOf c).length, ← Nat.add_assoc, readPieces_escape first, later]
      induction piecesOf c with
      | nil => rfl
      | cons piece pieces ih => rw [List.foldr_cons, ih, addPiece, List.cons_append]

theorem length_piecesOf_le (c : ℕ) : (piecesOf c).length ≤ (escape c).length := by
  have unit : ∀ n, 1 ≤ (hexEscape 'u' 4 n).length := fun n => Nat.succ_pos _
  unfold piecesOf escape
  cases letterOf c with
  | some letter => exact Nat.le_succ 1
  | none =>
      by_cases printable : 0x20 ≤ c ∧ c < 0x7F
      · simp only [if_pos printable]
        exact Nat.le_refl 1
      · by_cases small : c < 0x10000
        · simp only [if_neg printable, if_pos small]
          exact unit c
        · simp only [if_neg printable, if_neg small, List.length_append]
          exact Nat.add_le_add (unit _) (unit _)

theorem length_flatMap_piecesOf_le (content : Text) :
    (content.flatMap piecesOf).length ≤ (content.flatMap escape).length := by
  induction content with
  | nil => exact Nat.le_refl 0
  | cons c content ih =>
      rw [List.flatMap_cons, List.flatMap_cons, List.length_append, List.length_append]
      exact Nat.add_le_add (length_piecesOf_le c) ih

theorem lt_of_letterOf {c letter : ℕ} (short : letterOf c = some letter) : c < 0x80 := by
  have each : ∀ escape ∈ shortEscapes, escape.2 < 0x80 := by decide
  obtain ⟨escape, found, -⟩ := Option.map_eq_some_iff.mp short
  have same : escape.2 = c := by simpa using List.find?_some found
  rw [← same]
  exact each escape (List.mem_of_find?_eq_some found)

/-- A surrogate is a single piece that may be half of a pair. -/
theorem piecesOf_surrogate {c : ℕ} (surrogate : CodePoints.isSurrogate c = true) :
    piecesOf c = [(c, true)] := by
  have bounds : 0xD800 ≤ c ∧ c < 0xE000 := by
    simp only [CodePoints.isSurrogate, CodePoints.isHigh, CodePoints.isLow, Bool.or_eq_true,
      decide_eq_true_eq] at surrogate
    omega
  have long : letterOf c = none := by
    cases short : letterOf c with
    | none => rfl
    | some letter =>
        have small := lt_of_letterOf short
        omega
  simp only [piecesOf, long]
  rw [if_neg (by omega), if_pos (by omega)]

/-- The pieces of a code point that is no first half are joined to it. -/
theorem join_piecesOf {c : ℕ} (valid : c < 0x110000) (alone : CodePoints.isHigh c = false)
    (rest : List (ℕ × Bool)) :
    CodePoints.join (piecesOf c ++ rest) = c :: CodePoints.join rest := by
  unfold piecesOf
  cases letterOf c with
  | some letter => exact CodePoints.join_cons rest rfl
  | none =>
      by_cases printable : 0x20 ≤ c ∧ c < 0x7F
      · simp only [if_pos printable]
        exact CodePoints.join_cons rest rfl
      · by_cases small : c < 0x10000
        · simp only [if_neg printable, if_pos small]
          exact CodePoints.join_cons rest alone
        · simp only [if_neg printable, if_neg small]
          exact CodePoints.join_pair (Nat.le_of_not_lt small) valid rest

/-- The pieces of a code point that is no second half do not begin with one. -/
theorem piecesOf_begins {c : ℕ} (valid : c < 0x110000) (other : CodePoints.isLow c = false) :
    ∃ unit half more, piecesOf c = (unit, half) :: more ∧ CodePoints.isLow unit = false := by
  unfold piecesOf
  cases letterOf c with
  | some letter => exact ⟨c, false, [], rfl, other⟩
  | none =>
      by_cases printable : 0x20 ≤ c ∧ c < 0x7F
      · exact ⟨c, false, [], by simp only [if_pos printable], other⟩
      · by_cases small : c < 0x10000
        · exact ⟨c, true, [], by simp only [if_neg printable, if_pos small], other⟩
        · refine ⟨CodePoints.high c, true, [(CodePoints.low c, true)], ?_, ?_⟩
          · simp only [if_neg printable, if_neg small]
          · rw [CodePoints.isLow, CodePoints.high, decide_eq_false_iff_not]
            omega

/-- **What is read of what is written for a text**: the text with its pairs joined. -/
theorem join_flatMap_piecesOf : ∀ {content : Text}, (∀ c ∈ content, c < 0x110000) →
    CodePoints.join (content.flatMap piecesOf) = CodePoints.joinPairs content
  | [], _ => rfl
  | [c], valid => by
      rw [List.flatMap_singleton, CodePoints.joinPairs_singleton]
      cases first : CodePoints.isHigh c with
      | false =>
          have joined := join_piecesOf (valid c List.mem_cons_self) first []
          rwa [List.append_nil] at joined
      | true =>
          rw [piecesOf_surrogate (by rw [CodePoints.isSurrogate, first, Bool.true_or])]
          rfl
  | c :: d :: rest, valid => by
      obtain ⟨here, later⟩ := List.forall_mem_cons.mp valid
      obtain ⟨next, after⟩ := List.forall_mem_cons.mp later
      have tail := join_flatMap_piecesOf later
      rw [List.flatMap_cons]
      cases first : CodePoints.isHigh c with
      | false => rw [join_piecesOf here first, tail, CodePoints.joinPairs_cons first]
      | true =>
          rw [piecesOf_surrogate (by rw [CodePoints.isSurrogate, first, Bool.true_or]),
            List.singleton_append]
          cases second : CodePoints.isLow d with
          | true =>
              rw [List.flatMap_cons,
                piecesOf_surrogate (by rw [CodePoints.isSurrogate, second, Bool.or_true]),
                List.singleton_append, CodePoints.joinPairs_pair first second,
                ← join_flatMap_piecesOf after]
              simp only [CodePoints.join, first, second, Bool.and_self, if_true]
          | false =>
              obtain ⟨unit, half, more, begins, other⟩ := piecesOf_begins next second
              have apart : ¬ (CodePoints.isHigh c ∧ CodePoints.isLow d) := by simp [second]
              rw [CodePoints.joinPairs_apart apart, ← tail, List.flatMap_cons, begins,
                List.cons_append]
              simp only [CodePoints.join, other, Bool.and_false, Bool.false_eq_true, if_false]

theorem lt_of_isScalar {c : ℕ} (scalar : CodePoints.isScalar c) : c < 0x110000 := by
  rw [CodePoints.isScalar, Bool.and_eq_true, decide_eq_true_iff] at scalar
  exact scalar.1

/-- Text without surrogates has no pairs. -/
theorem joinPairs_of_scalar {content : Text} (scalar : ∀ c ∈ content, CodePoints.isScalar c) :
    CodePoints.joinPairs content = content := by
  induction content with
  | nil => rfl
  | cons c content ih =>
      have first := scalar c List.mem_cons_self
      rw [CodePoints.isScalar, CodePoints.isSurrogate, Bool.and_eq_true, Bool.not_eq_true',
        Bool.or_eq_false_iff] at first
      rw [CodePoints.joinPairs_cons first.2.1,
        ih fun c member => scalar c (List.mem_cons_of_mem _ member)]

/-- **A string is read back**, its pairs joined. -/
theorem readString_flatMap {content : Text} (valid : ∀ c ∈ content, c < 0x110000) (rest : Text) :
    readString (content.flatMap escape ++ code '"' :: rest)
      = .ok (CodePoints.joinPairs content, rest) := by
  have enough := length_flatMap_piecesOf_le content
  obtain ⟨fuel, size⟩ : ∃ fuel, (content.flatMap escape ++ code '"' :: rest).length
      = fuel + 1 + (content.flatMap piecesOf).length := by
    refine ⟨(content.flatMap escape ++ code '"' :: rest).length - 1
      - (content.flatMap piecesOf).length, ?_⟩
    rw [List.length_append, List.length_cons]
    omega
  rw [readString, size, readPieces_flatMap valid rest fuel]
  simp only [bind, Except.bind, pure, Except.pure, join_flatMap_piecesOf valid]

section Members

variable {float : Text → Text} {limit room : ℕ}

theorem writeString_append (content rest : Text) :
    writeString content ++ rest = code '"' :: (content.flatMap escape ++ code '"' :: rest) := by
  rw [writeString, List.cons_append, List.cons_append, List.append_assoc, List.singleton_append]

theorem readValue_writeString {content : Text} (valid : ∀ c ∈ content, c < 0x110000)
    (rest : Text) :
    readValue float limit room (writeString content ++ rest)
      = .ok (.str (CodePoints.joinPairs content), rest) := by
  have string : readScalar float limit (writeString content ++ rest)
      = .ok (.str (CodePoints.joinPairs content), rest) := by
    rw [writeString_append, readScalar, List.head?_cons, if_pos rfl, List.drop_one,
      List.tail_cons, readString_flatMap valid]
    rfl
  rw [← string, writeString_append]
  cases room with
  | zero => rfl
  | succ room => rfl

/-- The text of an object of one member that is a string. -/
def memberText (name content : Text) : Text :=
  code '{' :: (writeString name ++ code ':' :: (writeString content ++ [code '}']))

/-- **An object of one member that is a string is read back.** -/
theorem readValue_member {name content : Text} (named : ∀ c ∈ name, CodePoints.isScalar c)
    (valid : ∀ c ∈ content, c < 0x110000) :
    readValue float limit (room + 1) (memberText name content)
      = .ok (.dict [(name, .str (CodePoints.joinPairs content))], []) := by
  have quote : ∀ rest, skip (code '"' :: rest) = code '"' :: rest := fun _ => rfl
  have first := readString_flatMap (fun c member => lt_of_isScalar (named c member))
    (code ':' :: (writeString content ++ [code '}']))
  rw [joinPairs_of_scalar named] at first
  have second : readValue float limit room (writeString content ++ [code '}'])
      = .ok (.str (CodePoints.joinPairs content), [code '}']) := readValue_writeString valid _
  have skipped : skip (writeString content ++ [code '}']) = writeString content ++ [code '}'] := by
    rw [writeString_append, quote]
  have skip_colon : ∀ rest, skip (code ':' :: rest) = code ':' :: rest := fun _ => rfl
  have skip_brace : skip [code '}'] = [code '}'] := rfl
  have other : some (code '"') ≠ some (code '}') := by decide
  have members : ∀ fuel, readMembers (readValue float limit room) (fuel + 1) []
      (writeString name ++ code ':' :: (writeString content ++ [code '}']))
        = .ok ([(name, .str (CodePoints.joinPairs content))], []) := by
    intro fuel
    rw [writeString_append, readMembers, if_pos rfl, first]
    simp only [bind, Except.bind, skip_colon, if_true, skipped, second, skip_brace, pure,
      Except.pure, setMember]
  rw [memberText, readValue, if_pos rfl, readDict, writeString_append, quote, List.head?_cons,
    if_neg other, List.length_cons, ← writeString_append, members]
  rfl

theorem escape_ascii (c : ℕ) : ∀ d ∈ escape c, d < 0x80 := by
  have unit (n : ℕ) : ∀ d ∈ hexEscape 'u' 4 n, d < 0x80 := fun d =>
    ascii_of_mem_hexEscape (by decide)
  intro d member
  unfold escape at member
  cases short : letterOf c with
  | some letter =>
      rw [short] at member
      rcases List.mem_cons.mp member with rfl | member
      · decide
      · rw [List.mem_singleton.mp member]
        exact (of_letterOf short).2.2
  | none =>
      simp only [short] at member
      split at member
      · rename_i printable
        rw [List.mem_singleton.mp member]
        exact Nat.lt_trans printable.2 (by decide)
      · split at member
        · exact unit c d member
        · rcases List.mem_append.mp member with first | second
          · exact unit _ d first
          · exact unit _ d second

theorem writeString_ascii (content : Text) : ∀ d ∈ writeString content, d < 0x80 := by
  intro d member
  rw [writeString, List.cons_append, List.mem_cons, List.mem_append, List.mem_flatMap,
    List.mem_singleton] at member
  rcases member with rfl | ⟨c, -, inside⟩ | rfl
  · decide
  · exact escape_ascii c d inside
  · decide

theorem memberText_ascii (name content : Text) : ∀ c ∈ memberText name content, c < 0x80 := by
  intro c member
  simp only [memberText, List.mem_cons, List.mem_append, List.not_mem_nil, or_false] at member
  rcases member with rfl | inside | rfl | inside | rfl
  · decide
  · exact writeString_ascii name c inside
  · decide
  · exact writeString_ascii content c inside
  · decide

theorem map_toNat_ofNat {content : Text} (ascii : ∀ c ∈ content, c < 0x80) :
    (content.map UInt8.ofNat).map UInt8.toNat = content := by
  have same : ∀ c ∈ content, (UInt8.toNat ∘ UInt8.ofNat) c = id c := by
    intro c member
    have small := ascii c member
    rw [Function.comp_apply, UInt8.toNat_ofNat', Nat.mod_eq_of_lt (by omega), id_eq]
  rw [List.map_map, List.map_congr_left same, List.map_id]

/-- The bytes of an object are told to be UTF-8. -/
theorem decodeBytes_object {rest : Text} (ascii : ∀ c ∈ code '{' :: code '"' :: rest, c < 0x80) :
    decodeBytes ((code '{' :: code '"' :: rest).map UInt8.ofNat)
      = some (code '{' :: code '"' :: rest) := by
  have whole : ∀ later, decodeBytes (0x7B :: 0x22 :: later)
      = CodePoints.decodeUtf8 false (0x7B :: 0x22 :: later) := by
    intro later
    rcases later with _ | ⟨c, _ | ⟨d, later⟩⟩ <;> rfl
  have small : ∀ b ∈ (code '{' :: code '"' :: rest).map UInt8.ofNat, b < 0x80 := by
    intro b member
    obtain ⟨c, inside, rfl⟩ := List.mem_map.mp member
    have below := ascii c inside
    exact (UInt8.ofNat_lt_iff (Nat.lt_trans below (by decide))).mpr below
  have decoded := CodePoints.decodeUtf8_ascii false small
  rw [map_toNat_ofNat ascii] at decoded
  exact (whole _).trans decoded

/-- **What is written for an object of one member that is a string is loaded again.** -/
theorem load_write_member {name content : Text} (named : ∀ c ∈ name, CodePoints.isScalar c)
    (valid : ∀ c ∈ content, c < 0x110000) (comma : Text) :
    ∃ written, write limit comma [code ':'] (room + 1) (.dict [(name, .str content)]) = .ok written
      ∧ (∀ c ∈ written, c < 0x80)
      ∧ ∀ {space}, load float limit (space + 1) (written.map UInt8.ofNat)
        = .ok (.dict [(name, .str (CodePoints.joinPairs content))]) := by
  refine ⟨memberText name content, ?_, memberText_ascii name content, ?_⟩
  · simp only [write, writeMembers, bind, Except.bind, pure, Except.pure, List.isEmpty_nil, if_true,
      List.append_nil, List.append_assoc, List.cons_append, List.nil_append, memberText]
  · intro space
    have ascii := memberText_ascii name content
    have read : readValue float limit (space + 1) (memberText name content)
        = .ok (.dict [(name, .str (CodePoints.joinPairs content))], []) :=
      readValue_member named valid
    obtain ⟨rest, begins⟩ : ∃ rest, memberText name content = code '{' :: code '"' :: rest :=
      ⟨_, rfl⟩
    rw [begins] at ascii read ⊢
    have skipped : skip (code '{' :: code '"' :: rest) = code '{' :: code '"' :: rest := rfl
    rw [load, decodeBytes_object ascii]
    simp only [skipped, read, bind, Except.bind]
    rfl

end Members

end Json
