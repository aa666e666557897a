import Mathlib.Data.Int.Notation
import Mathlib.Data.List.Basic

/-!
# ASGI applications

The part of ASGI and of Python that the middleware is written against: byte
strings and their codecs, exceptions, the events an application receives and
sends, the connection scope, and applications.

An application is a tree of the awaits it performs (`App`). At each await it
receives an event, sends an event, or waits for something else, and it continues
with what the await gave it: a value, or an exception raised at that point. A
server, a client that goes away and a timeout act on an application only through
these results, so a middleware is checked against every tree. A tree is well
founded; a run of an application that never ends agrees, up to any moment, with a
run of a tree cut below that moment.
-/

set_option autoImplicit false

namespace PyCommon

/-! ## Bytes and text -/

/-- A Python `bytes` value. -/
abbrev Bytes := List UInt8

/-- What an `await` or a call can raise. All but the last are subclasses of
`Exception`; `asyncio.CancelledError` derives from `BaseException` alone. -/
inductive PyExc where
  | redisError
  | unicodeDecodeError
  | unicodeEncodeError
  | bodyTooLarge
  | error (code : ℕ)
  | cancelledError
  deriving DecidableEq

/-- Whether `except Exception` catches it. -/
def PyExc.isException : PyExc → Bool
  | .cancelledError => false
  | _ => true

/-- Only `CancelledError` is not an `Exception`. -/
theorem eq_cancelledError_of_not_isException {e : PyExc} (other : ¬ e.isException) :
    e = .cancelledError := by
  cases e <;> first | rfl | exact absurd rfl other

/-- `str.encode()`. A Lean string holds no lone surrogates, so this never raises. -/
def encode (text : String) : Bytes := text.toByteArray.data.toList

/-- `bytes.decode()`, strict UTF-8. -/
def decode (raw : Bytes) : Except PyExc String :=
  match String.fromUTF8? ⟨raw.toArray⟩ with
  | some text => .ok text
  | none => .error .unicodeDecodeError

theorem encode_injective : Function.Injective encode := by
  intro first second same
  have arrays : first.toByteArray.data = second.toByteArray.data := Array.ext' same
  exact String.toByteArray_inj.mp (ByteArray.ext arrays)

/-- `bytes.decode("latin-1")`: every byte is the code point of its value. -/
def decodeLatin1 (raw : Bytes) : String :=
  String.ofList (raw.map fun byte => Char.ofNat byte.toNat)

/-- `str.encode("latin-1")`, which raises on a code point above 255. -/
def encodeLatin1 (text : String) : Except PyExc Bytes :=
  text.toList.mapM fun c =>
    if c.toNat < 256 then .ok (UInt8.ofNat c.toNat) else .error .unicodeEncodeError

theorem toNat_ofNat_byte (byte : UInt8) : (Char.ofNat byte.toNat).toNat = byte.toNat := by
  have small : byte.toNat < 256 := byte.toNat_lt
  have valid : byte.toNat.isValidChar := Or.inl (by omega)
  have built : Char.ofNat byte.toNat = Char.ofNatAux byte.toNat valid := dif_pos valid
  rw [built]
  rfl

/-- The latin-1 text of a body encodes back to the body. -/
theorem encodeLatin1_decodeLatin1 (raw : Bytes) : encodeLatin1 (decodeLatin1 raw) = .ok raw := by
  simp only [encodeLatin1, decodeLatin1, String.toList_ofList]
  induction raw with
  | nil => rfl
  | cons byte raw ih =>
      have small : byte.toNat < 256 := byte.toNat_lt
      simp only [List.map_cons, List.mapM_cons, toNat_ofNat_byte, if_pos small, ih]
      simp [pure, Except.pure, bind, Except.bind]

theorem decodeLatin1_injective : Function.Injective decodeLatin1 := by
  intro first second same
  have encoded := congrArg encodeLatin1 same
  rw [encodeLatin1_decodeLatin1, encodeLatin1_decodeLatin1] at encoded
  exact Except.ok.inj encoded

/-- `str.lower()` on the ASCII letters. -/
def lower (text : String) : String := String.ofList (text.toList.map Char.toLower)

/-- `str.upper()` on the ASCII letters, the only ones in an HTTP method. -/
def upper (text : String) : String := String.ofList (text.toList.map Char.toUpper)

/-- `bytes.lower()`. -/
def lowerBytes (raw : Bytes) : Bytes :=
  raw.map fun byte => if 65 ≤ byte ∧ byte ≤ 90 then byte + 32 else byte

/-! ## UTF-8 text in byte form -/

theorem encode_eq_flatMap (text : String) :
    encode text = text.toList.flatMap String.utf8EncodeChar := by
  rw [encode, ← String.utf8Encode_toList, List.utf8Encode, List.data_toByteArray]

/-- Text that was decoded encodes back to the bytes. -/
theorem encode_of_decode {raw : Bytes} {text : String} (decoded : decode raw = .ok text) :
    encode text = raw := by
  unfold decode at decoded
  split at decoded
  · rename_i found
    obtain rfl := Except.ok.inj decoded
    rw [String.fromUTF8?] at found
    split at found
    · obtain rfl := Option.some.inj found
      rfl
    · cases found
  · cases decoded

/-- Text in byte form is decoded. -/
theorem decode_encode (text : String) : decode (encode text) = .ok text := by
  have same : (⟨(encode text).toArray⟩ : ByteArray) = text.toByteArray := by
    rw [encode, Array.toArray_toList]
  rw [decode, same, String.fromUTF8?, dif_pos text.isValidUTF8]
  rfl

theorem lowerBytes_of_large {raw : Bytes} (large : ∀ byte ∈ raw, 128 ≤ byte.toNat) :
    lowerBytes raw = raw := by
  unfold lowerBytes
  conv_rhs => rw [← List.map_id raw]
  refine List.map_congr_left fun byte member => ?_
  have above := large byte member
  rw [if_neg]
  · rfl
  · intro upper
    have below : byte.toNat ≤ 90 := UInt8.le_iff_toNat_le.mp upper.2
    omega

theorem utf8EncodeChar_of_ascii {c : Char} (ascii : c.val.toNat ≤ 127) :
    String.utf8EncodeChar c = [UInt8.ofNat c.val.toNat] := if_pos ascii

/-- No byte of a character outside ASCII is an ASCII byte. -/
theorem large_of_mem_utf8EncodeChar {c : Char} (other : 127 < c.val.toNat) {byte : UInt8}
    (member : byte ∈ String.utf8EncodeChar c) : 128 ≤ byte.toNat := by
  simp only [String.utf8EncodeChar] at member
  rw [if_neg (by omega)] at member
  split at member
  · simp only [List.mem_cons, List.not_mem_nil, or_false] at member
    rcases member with rfl | rfl
    all_goals simp only [UInt8.toNat_ofNat']
    all_goals omega
  · split at member
    · simp only [List.mem_cons, List.not_mem_nil, or_false] at member
      rcases member with rfl | rfl | rfl
      all_goals simp only [UInt8.toNat_ofNat']
      all_goals omega
    · simp only [List.mem_cons, List.not_mem_nil, or_false] at member
      rcases member with rfl | rfl | rfl | rfl
      all_goals simp only [UInt8.toNat_ofNat']
      all_goals omega

theorem toNat_toLower {c : Char} (upper : c.val ≥ 'A'.val ∧ c.val ≤ 'Z'.val) :
    c.toLower.val.toNat = c.val.toNat + 32 := by
  have high : c.val.toNat ≤ 90 := UInt32.le_iff_toNat_le.mp upper.2
  unfold Char.toLower
  rw [dif_pos upper]
  have sum : (c.val + ('a'.val - 'A'.val)).toNat = (c.val.toNat + 32) % 2 ^ 32 :=
    UInt32.toNat_add _ _
  rw [sum, Nat.mod_eq_of_lt (by omega)]

theorem toLower_of_not_upper {c : Char} (other : ¬ (c.val ≥ 'A'.val ∧ c.val ≤ 'Z'.val)) :
    c.toLower = c := by
  unfold Char.toLower
  rw [dif_neg other]

/-- What is in lower case stays as it is. -/
theorem toLower_toLower (c : Char) : c.toLower.toLower = c.toLower := by
  by_cases upper : c.val ≥ 'A'.val ∧ c.val ≤ 'Z'.val
  · refine toLower_of_not_upper fun again => ?_
    have low : 65 ≤ c.val.toNat := UInt32.le_iff_toNat_le.mp upper.1
    have high : c.toLower.val.toNat ≤ 90 := UInt32.le_iff_toNat_le.mp again.2
    rw [toNat_toLower upper] at high
    omega
  · rw [toLower_of_not_upper upper, toLower_of_not_upper upper]

theorem utf8EncodeChar_toLower (c : Char) :
    String.utf8EncodeChar c.toLower = lowerBytes (String.utf8EncodeChar c) := by
  by_cases upper : c.val ≥ 'A'.val ∧ c.val ≤ 'Z'.val
  · have lo : 65 ≤ c.val.toNat := UInt32.le_iff_toNat_le.mp upper.1
    have hi : c.val.toNat ≤ 90 := UInt32.le_iff_toNat_le.mp upper.2
    have lowered := toNat_toLower upper
    have inside : 65 ≤ UInt8.ofNat c.val.toNat ∧ UInt8.ofNat c.val.toNat ≤ 90 := by
      rw [UInt8.le_iff_toNat_le, UInt8.le_iff_toNat_le, UInt8.toNat_ofNat',
        Nat.mod_eq_of_lt (by omega)]
      exact ⟨lo, hi⟩
    rw [utf8EncodeChar_of_ascii (by omega), utf8EncodeChar_of_ascii (by omega), lowered]
    simp only [lowerBytes, List.map_cons, List.map_nil, if_pos inside, UInt8.ofNat_add]
    rfl
  · rw [toLower_of_not_upper upper]
    by_cases ascii : c.val.toNat ≤ 127
    · have outside : ¬ (65 ≤ UInt8.ofNat c.val.toNat ∧ UInt8.ofNat c.val.toNat ≤ 90) := by
        rw [UInt8.le_iff_toNat_le, UInt8.le_iff_toNat_le, UInt8.toNat_ofNat',
          Nat.mod_eq_of_lt (by omega)]
        intro both
        exact upper ⟨UInt32.le_iff_toNat_le.mpr both.1, UInt32.le_iff_toNat_le.mpr both.2⟩
      rw [utf8EncodeChar_of_ascii ascii]
      simp only [lowerBytes, List.map_cons, List.map_nil, if_neg outside]
    · exact (lowerBytes_of_large fun _ member =>
        large_of_mem_utf8EncodeChar (Nat.lt_of_not_le ascii) member).symm

/-- Lowering the text and lowering its bytes is the same. -/
theorem encode_lower (text : String) : encode (lower text) = lowerBytes (encode text) := by
  rw [encode_eq_flatMap, encode_eq_flatMap, lower, String.toList_ofList, lowerBytes,
    List.flatMap_map, List.map_flatMap]
  exact List.flatMap_congr fun c _ => utf8EncodeChar_toLower c

/-! ## Events -/

/-- What `receive` yields. A missing `body` or `more_body` is read with its
default, so the two fields are always present here. -/
inductive ReceiveMessage where
  | request (body : Bytes) (moreBody : Bool)
  | disconnect
  deriving DecidableEq

/-- What is passed to `send`. -/
inductive SendMessage where
  | start (status : ℤ) (headers : List (Bytes × Bytes))
  | body (body : Bytes) (moreBody : Bool)
  | other (type : String)
  deriving DecidableEq

def SendMessage.isStart : SendMessage → Bool
  | .start _ _ => true
  | _ => false

def SendMessage.isBody : SendMessage → Bool
  | .body _ _ => true
  | _ => false

def SendMessage.bodyLength : SendMessage → ℕ
  | .body chunk _ => chunk.length
  | _ => 0

/-! ## The connection scope -/

inductive ScopeType where
  | http
  | websocket
  | lifespan
  deriving DecidableEq

/-- The object an authentication layer may leave in the state: only its `sub`
attribute is ever read. -/
structure User where
  sub : Option String
  deriving DecidableEq

/-- The entries of the request state the library reads or writes. -/
structure StateEntries where
  user : Option User := none
  requestId : Option String := none
  deriving DecidableEq

/-- `scope["state"]`: a plain dict, as a server and the middleware build it, or a
Starlette `State` object. -/
inductive StateValue where
  | dict (entries : StateEntries)
  | object (entries : StateEntries)
  deriving DecidableEq

/-- The connection scope. `problemTypeBaseUrl` is the attribute of that name of
`scope["app"].state`, absent unless it is a string. -/
structure Scope where
  type : ScopeType := .http
  method : String
  path : String
  queryString : Bytes := []
  headers : List (Bytes × Bytes) := []
  client : Option (String × ℕ) := none
  state : Option StateValue := none
  problemTypeBaseUrl : Option String := none
  deriving DecidableEq

/-- `headers.get(self.header_name) or str(uuid.uuid4())`, given the id that would be generated.
An empty value counts as none. Names and values are bytes, or the texts they spell. -/
def requestIdOf {α : Type} [DecidableEq α] (empty name : α) (headers : List (α × α))
    (generated : α) : α :=
  match headers.find? fun pair => pair.1 = name with
  | some pair => if pair.2 = empty then generated else pair.2
  | none => generated

/-! ## Applications -/

/-- An ASGI application serving one connection: the tree of its awaits. -/
inductive App where
  | done
  | raise (e : PyExc)
  | receive (k : Except PyExc ReceiveMessage → App)
  | send (message : SendMessage) (k : Except PyExc Unit → App)
  | sleep (k : Except PyExc Unit → App)

/-- How an application ended, if it has. -/
def App.result : App → Option (Except PyExc Unit)
  | .done => some (.ok ())
  | .raise e => some (.error e)
  | _ => none

/-- Send the messages in order and return. An exception raised by `send` is not
caught. -/
def App.sending : List SendMessage → App
  | [] => .done
  | message :: rest => .send message fun result =>
      match result with
      | .ok _ => App.sending rest
      | .error e => .raise e

end PyCommon
