import PyCommon.Asgi
import PyCommon.Http.Pagination
import PyCommon.Lib.Json

/-!
# JSON responses

Starlette's `JSONResponse`: the body is `json.dumps(content, ensure_ascii=False,
allow_nan=False, separators=(",", ":"))` in UTF-8, and the headers of the caller come
before those it adds.

The content is a Python object (`PyObject`), whatever the caller put there. Rendering it
raises on a NaN or an infinity, on an object that JSON has no text for, as a value or as a
key, on an integer with too many digits and on containers nested too deep; and, once the
text is written, on a surrogate in it. `rendered_iff` says that it raises on nothing else.
-/

set_option autoImplicit false

namespace PyCommon.JsonResponse

open CodePoints (Text code text)

/-! ## Objects -/

/-- A float, by the `repr` of a finite one. -/
inductive PyFloat where
  | finite (repr : String)
  | nan
  | infinity (negative : Bool)
  deriving DecidableEq

/-- A Python object, as `json.dumps` tells them apart. A tuple counts as a list, and
`foreign` is any object that is neither of the others: bytes, a set, a `datetime`. -/
inductive PyObject where
  | null
  | bool (b : Bool)
  | int (n : ℤ)
  | float (x : PyFloat)
  | str (content : Text)
  | list (items : List PyObject)
  | dict (members : List (PyObject × PyObject))
  | foreign (number : ℕ)

/-- What the handlers and the response may raise. -/
inductive Failure where
  | valueError
  | typeError
  | recursionError
  | unicodeEncodeError
  deriving DecidableEq

/-! ## Rendering -/

/-- What is written for a code point: only quotes, backslashes and control characters are
escaped. -/
def escape (c : ℕ) : Text :=
  match Json.letterOf c with
  | some letter => [code '\\', letter]
  | none => if c < 0x20 then CodePoints.hexEscape 'u' 4 c else [c]

def writeString (content : Text) : Text := code '"' :: content.flatMap escape ++ [code '"']

def writeInt (n : ℤ) : Except Failure Text :=
  match Json.writeInt Pagination.maxStrDigits n with
  | some written => .ok written
  | none => .error .valueError

def writeFloat : PyFloat → Except Failure Text
  | .finite repr => .ok (text repr)
  | _ => .error .valueError

/-- The text of a key, before it is quoted. -/
def keyText : PyObject → Except Failure Text
  | .null => .ok (text "null")
  | .bool b => .ok (text (if b then "true" else "false"))
  | .int n => writeInt n
  | .float x => writeFloat x
  | .str content => .ok content
  | _ => .error .typeError

mutual
/-- `json.dumps` of a value in which containers are nested at most `room` deep. -/
def write (room : ℕ) : PyObject → Except Failure Text
  | .null => .ok (text "null")
  | .bool b => .ok (text (if b then "true" else "false"))
  | .int n => writeInt n
  | .float x => writeFloat x
  | .str content => .ok (writeString content)
  | .list items => match room with
      | 0 => .error .recursionError
      | room + 1 => do
          let written ← writeItems room items
          return code '[' :: written ++ [code ']']
  | .dict members => match room with
      | 0 => .error .recursionError
      | room + 1 => do
          let written ← writeMembers room members
          return code '{' :: written ++ [code '}']
  | .foreign _ => .error .typeError

def writeItems (room : ℕ) : List PyObject → Except Failure Text
  | [] => .ok []
  | item :: rest => do
      let first ← write room item
      let later ← writeItems room rest
      return first ++ (if rest.isEmpty then [] else [code ',']) ++ later

def writeMembers (room : ℕ) : List (PyObject × PyObject) → Except Failure Text
  | [] => .ok []
  | (key, value) :: rest => do
      let name ← keyText key
      let first ← write room value
      let later ← writeMembers room rest
      return writeString name ++ code ':' :: first ++
        (if rest.isEmpty then [] else [code ',']) ++ later
end

/-- `str.encode("utf-8")`. -/
def encodeUtf8 (content : Text) : Except Failure Bytes :=
  match CodePoints.encodeUtf8 content with
  | some raw => .ok raw
  | none => .error .unicodeEncodeError

/-- `JSONResponse.render`. -/
def render (room : ℕ) (content : PyObject) : Except Failure Bytes := do
  let written ← write room content
  encodeUtf8 written

/-! ## What can be rendered -/

/-- A text that UTF-8 has an encoding for. -/
def Encodable (content : Text) : Prop := ∀ c ∈ content, CodePoints.isSurrogate c = false

/-- An integer that `int.__repr__` writes. -/
def Short (n : ℤ) : Prop := (Nat.toDigits 10 n.natAbs).length ≤ Pagination.maxStrDigits

instance (content : Text) : Decidable (Encodable content) :=
  inferInstanceAs (Decidable (∀ c ∈ content, CodePoints.isSurrogate c = false))

instance (n : ℤ) : Decidable (Short n) :=
  inferInstanceAs (Decidable ((Nat.toDigits 10 n.natAbs).length ≤ Pagination.maxStrDigits))

def PyFloat.isFinite : PyFloat → Bool
  | .finite _ => true
  | _ => false

/-- An object that may be the key of a JSON object. -/
def IsKey : PyObject → Prop
  | .null | .bool _ => True
  | .int n => Short n
  | .float x => x.isFinite
  | .str content => Encodable content
  | _ => False

mutual
/-- A JSON value: no NaN and no foreign object in it, no integer of too many digits, no
surrogate, and no container nested too deep. -/
def Serializable (room : ℕ) : PyObject → Prop
  | .null | .bool _ => True
  | .int n => Short n
  | .float x => x.isFinite
  | .str content => Encodable content
  | .list items => match room with
      | 0 => False
      | room + 1 => SerializableItems room items
  | .dict members => match room with
      | 0 => False
      | room + 1 => SerializableMembers room members
  | .foreign _ => False

def SerializableItems (room : ℕ) : List PyObject → Prop
  | [] => True
  | item :: rest => Serializable room item ∧ SerializableItems room rest

def SerializableMembers (room : ℕ) : List (PyObject × PyObject) → Prop
  | [] => True
  | (key, value) :: rest => IsKey key ∧ Serializable room value ∧ SerializableMembers room rest
end

/-! ### The parts of a text -/

theorem encodable_append {first later : Text} :
    Encodable (first ++ later) ↔ Encodable first ∧ Encodable later :=
  List.forall_mem_append

theorem encodable_cons {c : ℕ} {rest : Text} :
    Encodable (c :: rest) ↔ CodePoints.isSurrogate c = false ∧ Encodable rest :=
  List.forall_mem_cons

theorem encodable_chars (chars : List Char) : Encodable (chars.map code) := by
  intro c member
  obtain ⟨char, -, rfl⟩ := List.mem_map.mp member
  exact CodePoints.isSurrogate_toNat char

theorem encodable_text (literal : String) : Encodable (text literal) :=
  encodable_chars literal.toList

theorem encodable_singleton (c : Char) : Encodable [code c] := encodable_chars [c]

theorem encodable_quoted {content : Text} (opening closing : Char) :
    Encodable (code opening :: content ++ [code closing]) ↔ Encodable content := by
  rw [encodable_append, encodable_cons]
  constructor
  · intro parts
    exact parts.1.2
  · intro inside
    exact ⟨⟨CodePoints.isSurrogate_toNat opening, inside⟩, encodable_singleton closing⟩

/-- An escape has a surrogate exactly if it stands for one. -/
theorem encodable_escape (c : ℕ) : Encodable (escape c) ↔ CodePoints.isSurrogate c = false := by
  have ascii : ∀ d < 0x80, CodePoints.isSurrogate d = false := by decide
  unfold escape
  cases short : Json.letterOf c with
  | some letter =>
      have special : ∀ pair ∈ Json.shortEscapes, pair.2 < 0x80 := by decide
      obtain ⟨pair, found, rfl⟩ := Option.map_eq_some_iff.mp short
      have same : pair.2 = c := by simpa using List.find?_some found
      rw [encodable_cons, encodable_cons, ← same]
      refine ⟨fun _ => ascii _ (special pair (List.mem_of_find?_eq_some found)), fun _ => ?_⟩
      refine ⟨ascii _ (by decide), ascii _ (Json.of_letterOf short).2.2, ?_⟩
      intro d member
      cases member
  | none =>
      simp only
      split
      · rename_i control
        refine ⟨fun _ => ascii c (by omega), fun _ => ?_⟩
        rw [CodePoints.hexEscape, encodable_cons, encodable_cons]
        exact ⟨ascii _ (by decide), ascii _ (by decide), encodable_chars _⟩
      · exact ⟨fun single => single c (List.mem_singleton.mpr rfl),
          fun whole d member => by rw [List.mem_singleton.mp member, whole]⟩

theorem encodable_writeString {content : Text} :
    Encodable (writeString content) ↔ Encodable content := by
  rw [writeString, encodable_quoted]
  induction content with
  | nil => simp [Encodable]
  | cons c rest ih =>
      rw [List.flatMap_cons, encodable_append, encodable_cons, encodable_escape, ih]

/-- A text is written, and it can be encoded. -/
def Writes (written : Except Failure Text) : Prop := ∃ content, written = .ok content ∧
  Encodable content

theorem writes_ok {content : Text} : Writes (.ok content) ↔ Encodable content := by
  constructor
  · rintro ⟨same, written, encodable⟩
    obtain rfl := Except.ok.inj written
    exact encodable
  · intro encodable
    exact ⟨content, rfl, encodable⟩

theorem not_writes_error (e : Failure) : ¬ Writes (.error e) := by
  rintro ⟨content, written, -⟩
  cases written

/-- What is put around a text can be encoded if the text can. -/
theorem writes_bind {written : Except Failure Text} {k : Text → Except Failure Text} {later : Prop}
    (each : ∀ content, Writes (k content) ↔ Encodable content ∧ later) :
    Writes (written >>= k) ↔ Writes written ∧ later := by
  cases written with
  | error e => exact ⟨fun writes => absurd writes (not_writes_error e),
      fun both => absurd both.1 (not_writes_error e)⟩
  | ok content => exact (each content).trans (and_congr_left' writes_ok.symm)

theorem writes_quoted {written : Except Failure Text} (opening closing : Char) :
    Writes (do
      let content ← written
      return code opening :: content ++ [code closing]) ↔ Writes written := by
  have each : ∀ content : Text,
      Writes (pure (code opening :: content ++ [code closing])) ↔ Encodable content ∧ True := by
    intro content
    rw [and_true]
    exact writes_ok.trans (encodable_quoted opening closing)
  rw [writes_bind each, and_true]

theorem writes_writeInt {n : ℤ} : Writes (writeInt n) ↔ Short n := by
  unfold writeInt Json.writeInt Short
  split
  · rename_i written printed
    split at printed
    · rename_i short
      obtain rfl := Option.some.inj printed
      exact ⟨fun _ => short, fun _ => writes_ok.mpr (encodable_chars _)⟩
    · cases printed
  · rename_i refused
    split at refused
    · cases refused
    · rename_i long
      exact ⟨fun writes => absurd writes (not_writes_error _), fun short => absurd short long⟩

theorem writes_writeFloat {x : PyFloat} : Writes (writeFloat x) ↔ x.isFinite := by
  cases x with
  | finite repr => exact ⟨fun _ => rfl, fun _ => writes_ok.mpr (encodable_text repr)⟩
  | nan => exact ⟨fun writes => absurd writes (not_writes_error _), fun finite => by cases finite⟩
  | infinity negative =>
      exact ⟨fun writes => absurd writes (not_writes_error _), fun finite => by cases finite⟩

theorem writes_keyText {key : PyObject} : Writes (keyText key) ↔ IsKey key := by
  cases key with
  | null => exact ⟨fun _ => trivial, fun _ => writes_ok.mpr (encodable_text _)⟩
  | bool b => exact ⟨fun _ => trivial, fun _ => writes_ok.mpr (encodable_text _)⟩
  | int n => exact writes_writeInt
  | float x => exact writes_writeFloat
  | str content => exact writes_ok
  | _ => exact ⟨fun writes => absurd writes (not_writes_error _), fun isKey => isKey.elim⟩

theorem encodable_separator (last : Bool) :
    Encodable (if last then [] else [code ',']) := by
  cases last with
  | true =>
      intro c member
      cases member
  | false => exact encodable_singleton ','

/-! ### The text of a value -/

mutual
/-- **What is written and can be encoded.** -/
theorem writes_write (room : ℕ) : ∀ value : PyObject,
    Writes (write room value) ↔ Serializable room value
  | .null => by
      rw [write, Serializable, writes_ok]
      exact iff_true_intro (encodable_text _)
  | .bool b => by
      rw [write, Serializable, writes_ok]
      exact iff_true_intro (encodable_text _)
  | .int n => by
      rw [write, Serializable]
      exact writes_writeInt
  | .float x => by
      rw [write, Serializable]
      exact writes_writeFloat
  | .str content => by
      rw [write, Serializable, writes_ok]
      exact encodable_writeString
  | .list items => by
      cases room with
      | zero =>
          rw [write, Serializable]
          exact iff_false_intro (not_writes_error _)
      | succ room =>
          rw [write, Serializable, ← writes_writeItems room items]
          exact writes_quoted '[' ']'
  | .dict members => by
      cases room with
      | zero =>
          rw [write, Serializable]
          exact iff_false_intro (not_writes_error _)
      | succ room =>
          rw [write, Serializable, ← writes_writeMembers room members]
          exact writes_quoted '\x7b' '\x7d'
  | .foreign _ => by
      rw [write, Serializable]
      exact iff_false_intro (not_writes_error _)

theorem writes_writeItems (room : ℕ) : ∀ items : List PyObject,
    Writes (writeItems room items) ↔ SerializableItems room items
  | [] => by
      rw [writeItems, SerializableItems, writes_ok]
      exact iff_true_intro (by simp [Encodable])
  | item :: rest => by
      rw [writeItems, SerializableItems, ← writes_write room item, ← writes_writeItems room rest]
      refine writes_bind fun first => ?_
      rw [and_comm]
      refine writes_bind fun later => ?_
      refine writes_ok.trans ?_
      rw [encodable_append, encodable_append, and_comm]
      exact and_congr_right fun _ => and_iff_left (encodable_separator _)

theorem writes_writeMembers (room : ℕ) : ∀ members : List (PyObject × PyObject),
    Writes (writeMembers room members) ↔ SerializableMembers room members
  | [] => by
      rw [writeMembers, SerializableMembers, writes_ok]
      exact iff_true_intro (by simp [Encodable])
  | (key, value) :: rest => by
      rw [writeMembers, SerializableMembers, ← writes_keyText, ← writes_write room value,
        ← writes_writeMembers room rest]
      refine writes_bind fun name => ?_
      rw [and_left_comm]
      refine writes_bind fun first => ?_
      rw [← and_assoc, and_comm]
      refine writes_bind fun later => ?_
      refine writes_ok.trans ?_
      rw [encodable_append, encodable_append, encodable_append, encodable_cons,
        encodable_writeString, and_comm, and_comm (a := Encodable first)]
      refine and_congr_right fun _ => (and_iff_left (encodable_separator _)).trans ?_
      exact and_congr_right fun _ => and_iff_right (CodePoints.isSurrogate_toNat ':')
end

theorem serializableItems_iff {room : ℕ} {items : List PyObject} :
    SerializableItems room items ↔ ∀ item ∈ items, Serializable room item := by
  induction items with
  | nil => simp [SerializableItems]
  | cons item rest ih => rw [SerializableItems, List.forall_mem_cons, ih]

theorem serializableMembers_iff {room : ℕ} {members : List (PyObject × PyObject)} :
    SerializableMembers room members ↔
      ∀ member ∈ members, IsKey member.1 ∧ Serializable room member.2 := by
  induction members with
  | nil => simp [SerializableMembers]
  | cons member rest ih => rw [SerializableMembers, List.forall_mem_cons, ih, and_assoc]

/-- **What can be rendered.** -/
theorem rendered_iff {room : ℕ} {content : PyObject} :
    (∃ body, render room content = .ok body) ↔ Serializable room content := by
  rw [← writes_write, render]
  cases write room content with
  | error e =>
      refine ⟨fun ⟨body, rendered⟩ => ?_, fun writes => absurd writes (not_writes_error e)⟩
      cases rendered
  | ok written =>
      rw [writes_ok, Encodable, ← CodePoints.isSome_encodeUtf8]
      change (∃ body, encodeUtf8 written = .ok body) ↔ _
      unfold encodeUtf8
      cases CodePoints.encodeUtf8 written with
      | none => simp
      | some raw => simp

/-! ## Headers -/

/-- A text that Latin-1 has an encoding for. -/
def Latin1 (content : Text) : Prop := ∀ c ∈ content, c < 256

instance (content : Text) : Decidable (Latin1 content) :=
  inferInstanceAs (Decidable (∀ c ∈ content, c < 256))

/-- `str.encode("latin-1")`. -/
def encodeLatin1 (content : Text) : Except Failure Bytes :=
  content.mapM fun c => if c < 256 then .ok (UInt8.ofNat c) else .error .unicodeEncodeError

/-- The headers a caller gives a response; `lower` is `str.lower`. -/
def rawHeaders (lower : Text → Text) (headers : List (Text × Text)) :
    Except Failure (List (Bytes × Bytes)) :=
  headers.mapM fun (name, value) => do
    let rawName ← encodeLatin1 (lower name)
    let rawValue ← encodeLatin1 value
    return (rawName, rawValue)

/-- The names of the headers that `init_headers` adds if they are not there. -/
def contentLength : Bytes := encode "content-length"

def contentType : Bytes := encode "content-type"

/-- What `init_headers` adds, for a media type that is no text. -/
def addedHeaders (statusCode : ℤ) (body : Bytes) (mediaType : String)
    (own : List (Bytes × Bytes)) : List (Bytes × Bytes) :=
  (if (own.map Prod.fst).contains contentLength || statusCode < 200 || statusCode = 204 ||
      statusCode = 304 then []
    else [(contentLength, encode (toString body.length))]) ++
  (if (own.map Prod.fst).contains contentType then [] else [(contentType, encode mediaType)])

/-- `Response.init_headers`. -/
def initHeaders (lower : Text → Text) (statusCode : ℤ) (body : Bytes) (mediaType : String)
    (headers : List (Text × Text)) : Except Failure (List (Bytes × Bytes)) := do
  let own ← rawHeaders lower headers
  return own ++ addedHeaders statusCode body mediaType own

structure Response where
  statusCode : ℤ
  headers : List (Bytes × Bytes)
  body : Bytes
  deriving DecidableEq

/-- The messages of a response. -/
def Response.messages (response : Response) : List SendMessage :=
  [.start response.statusCode response.headers, .body response.body false]

/-- `JSONResponse(status_code=…, content=…, media_type=…, headers=…)`. -/
def create (room : ℕ) (lower : Text → Text) (statusCode : ℤ) (content : PyObject)
    (mediaType : String) (headers : List (Text × Text)) : Except Failure Response := do
  let body ← render room content
  let headers ← initHeaders lower statusCode body mediaType headers
  return ⟨statusCode, headers, body⟩

theorem ok_bind {α β : Type} (a : α) (k : α → Except Failure β) : (Except.ok a >>= k) = k a :=
  rfl

/-- A loop each of whose steps succeeds exactly on some elements, with a known result. -/
theorem mapM_eq_ok {α β : Type} {f : α → Except Failure β} {good : α → Prop} {result : α → β}
    (each : ∀ a b, f a = .ok b ↔ good a ∧ b = result a) {as : List α} {bs : List β} :
    as.mapM f = .ok bs ↔ (∀ a ∈ as, good a) ∧ bs = as.map result := by
  induction as generalizing bs with
  | nil =>
      rw [List.mapM_nil]
      constructor
      · intro same
        exact ⟨List.forall_mem_nil _, (Except.ok.inj same).symm⟩
      · rintro ⟨-, rfl⟩
        rfl
  | cons a as ih =>
      rw [List.mapM_cons, List.forall_mem_cons]
      cases first : f a with
      | error e =>
          constructor
          · intro same
            cases same
          · rintro ⟨⟨here, -⟩, -⟩
            cases first.symm.trans ((each a _).mpr ⟨here, rfl⟩)
      | ok b =>
          obtain ⟨here, rfl⟩ := (each a b).mp first
          cases later : as.mapM f with
          | error e =>
              constructor
              · intro same
                cases same
              · rintro ⟨⟨-, rest⟩, -⟩
                cases later.symm.trans (ih.mpr ⟨rest, rfl⟩)
          | ok rest =>
              obtain ⟨all, rfl⟩ := ih.mp later
              constructor
              · intro same
                exact ⟨⟨here, all⟩, (Except.ok.inj same).symm⟩
              · rintro ⟨-, rfl⟩
                rfl

/-- A loop each of whose results is fit for what follows. -/
theorem exists_mapM_iff {α β : Type} {f : α → Except Failure β} {fit : β → Prop} {as : List α} :
    (∃ bs, as.mapM f = .ok bs ∧ ∀ b ∈ bs, fit b) ↔ ∀ a ∈ as, ∃ b, f a = .ok b ∧ fit b := by
  induction as with
  | nil => exact ⟨fun _ => List.forall_mem_nil _, fun _ => ⟨[], rfl, List.forall_mem_nil _⟩⟩
  | cons a as ih =>
      rw [List.forall_mem_cons, ← ih, List.mapM_cons]
      constructor
      · rintro ⟨bs, ran, all⟩
        cases first : f a with
        | error e =>
            rw [first] at ran
            cases ran
        | ok b =>
            cases later : as.mapM f with
            | error e =>
                rw [first, later] at ran
                cases ran
            | ok rest =>
                rw [first, later] at ran
                obtain rfl := Except.ok.inj ran
                obtain ⟨here, others⟩ := List.forall_mem_cons.mp all
                exact ⟨⟨b, rfl, here⟩, rest, rfl, others⟩
      · rintro ⟨⟨b, first, here⟩, rest, later, others⟩
        refine ⟨b :: rest, ?_, List.forall_mem_cons.mpr ⟨here, others⟩⟩
        rw [first, later]
        rfl

theorem encodeLatin1_eq_ok {content : Text} {raw : Bytes} :
    encodeLatin1 content = .ok raw ↔ Latin1 content ∧ raw = content.map UInt8.ofNat := by
  refine mapM_eq_ok fun c byte => ?_
  split
  · rename_i small
    exact ⟨fun same => ⟨small, (Except.ok.inj same).symm⟩, fun both => by rw [both.2]⟩
  · rename_i large
    constructor
    · intro same
      cases same
    · intro both
      exact absurd both.1 large

/-- A header as it is sent. -/
def rawHeader (lower : Text → Text) (header : Text × Text) : Bytes × Bytes :=
  ((lower header.1).map UInt8.ofNat, header.2.map UInt8.ofNat)

theorem rawHeaders_eq_ok {lower : Text → Text} {headers : List (Text × Text)}
    {raw : List (Bytes × Bytes)} :
    rawHeaders lower headers = .ok raw ↔
      (∀ header ∈ headers, Latin1 (lower header.1) ∧ Latin1 header.2) ∧
        raw = headers.map (rawHeader lower) := by
  refine mapM_eq_ok fun (name, value) pair => ?_
  change (encodeLatin1 (lower name) >>= fun rawName => encodeLatin1 value >>= fun rawValue =>
    pure (rawName, rawValue)) = .ok pair ↔ _
  cases first : encodeLatin1 (lower name) with
  | error e =>
      constructor
      · intro same
        cases same
      · rintro ⟨⟨latin1, -⟩, -⟩
        cases first.symm.trans (encodeLatin1_eq_ok.mpr ⟨latin1, rfl⟩)
  | ok rawName =>
      obtain ⟨named, rfl⟩ := encodeLatin1_eq_ok.mp first
      cases second : encodeLatin1 value with
      | error e =>
          constructor
          · intro same
            cases same
          · rintro ⟨⟨-, latin1⟩, -⟩
            cases second.symm.trans (encodeLatin1_eq_ok.mpr ⟨latin1, rfl⟩)
      | ok rawValue =>
          obtain ⟨valued, rfl⟩ := encodeLatin1_eq_ok.mp second
          constructor
          · intro same
            exact ⟨⟨named, valued⟩, (Except.ok.inj same).symm⟩
          · rintro ⟨-, rfl⟩
            rfl

/-- Latin-1 texts with the same bytes are the same. -/
theorem Latin1.eq_of_map_eq {first second : Text} (one : Latin1 first) (other : Latin1 second)
    (same : first.map UInt8.ofNat = second.map UInt8.ofNat) : first = second := by
  have back : ∀ content, Latin1 content →
      (content.map UInt8.ofNat).map UInt8.toNat = content := by
    intro content latin1
    rw [List.map_map]
    conv_rhs => rw [← List.map_id content]
    exact List.map_congr_left fun c member => Nat.mod_eq_of_lt (latin1 c member)
  rw [← back first one, ← back second other, same]

theorem contains_map_fst {own : List (Bytes × Bytes)} {name : Bytes} :
    (own.map Prod.fst).contains name ↔ ∃ value, (name, value) ∈ own := by
  rw [List.contains_iff_mem, List.mem_map]
  constructor
  · rintro ⟨⟨_, value⟩, member, rfl⟩
    exact ⟨value, member⟩
  · rintro ⟨value, member⟩
    exact ⟨(name, value), member, rfl⟩

/-- The media type that is added is the only one, unless the caller gives another. -/
theorem mediaType_iff {statusCode : ℤ} {body : Bytes} {mediaType : String}
    {own : List (Bytes × Bytes)} :
    (∀ value, (contentType, value) ∈ own ++ addedHeaders statusCode body mediaType own ↔
        value = encode mediaType) ↔
      ∀ value, (contentType, value) ∈ own → value = encode mediaType := by
  have different : contentType ≠ contentLength := by decide
  have added : ∀ value, (contentType, value) ∈ addedHeaders statusCode body mediaType own ↔
      (¬ ∃ other, (contentType, other) ∈ own) ∧ value = encode mediaType := by
    intro value
    have length : ∀ present : Bool, (contentType, value) ∉
        if present then [] else [(contentLength, encode (toString body.length))] := by
      intro present
      cases present with
      | true => exact List.not_mem_nil
      | false => simp [different]
    rw [addedHeaders, List.mem_append, or_iff_right (length _), ← contains_map_fst]
    simp
  constructor
  · intro only value member
    exact (only value).mp (List.mem_append_left _ member)
  · intro ownOnly value
    rw [List.mem_append, added]
    constructor
    · rintro (member | ⟨-, same⟩)
      · exact ownOnly value member
      · exact same
    · rintro rfl
      by_cases given : ∃ other, (contentType, other) ∈ own
      · obtain ⟨other, member⟩ := given
        obtain rfl := ownOnly other member
        exact .inl member
      · exact .inr ⟨given, rfl⟩

/-- A response is made of a body that was rendered and headers that were encoded. -/
theorem create_eq_ok {room : ℕ} {lower : Text → Text} {statusCode : ℤ} {content : PyObject}
    {mediaType : String} {headers : List (Text × Text)} {response : Response} :
    create room lower statusCode content mediaType headers = .ok response ↔
      ∃ body, render room content = .ok body ∧ ∃ own, rawHeaders lower headers = .ok own ∧
        response = ⟨statusCode, own ++ addedHeaders statusCode body mediaType own, body⟩ := by
  unfold create initHeaders
  cases render room content with
  | error e =>
      constructor
      · intro made
        cases made
      · rintro ⟨body, rendered, -⟩
        cases rendered
  | ok body =>
      cases rawHeaders lower headers with
      | error e =>
          constructor
          · intro made
            cases made
          · rintro ⟨-, -, own, encoded, -⟩
            cases encoded
      | ok own =>
          constructor
          · intro made
            exact ⟨body, rfl, own, rfl, (Except.ok.inj made).symm⟩
          · rintro ⟨_, rendered, _, encoded, rfl⟩
            obtain rfl := Except.ok.inj rendered
            obtain rfl := Except.ok.inj encoded
            rfl

end PyCommon.JsonResponse
