import Mathlib.Data.List.Basic
import PyCommon.Lib.Numerals

/-!
# Percent-encoding

Text in the form of characters, and Python's `urllib.parse.quote` and `unquote`. The first writes
the UTF-8 encoding of a text, a byte that stands for no safe character as `%XX`. The second reads
the escapes in a run of ASCII as the bytes of UTF-8 and replaces what is no UTF-8.

What is quoted is read back, whatever is safe besides the letters, the digits and `_.-~`, unless
that is the percent sign (`unquote_quote`).
-/

set_option autoImplicit false

namespace PercentEncoding

open Numerals

/-! ## UTF-8 with replacement -/

def utf8 (content : List Char) : List UInt8 := content.flatMap String.utf8EncodeChar

/-- The character that begins a byte string. -/
def firstChar (raw : List UInt8) : Option Char := raw.toByteArray.utf8DecodeChar? 0

def isContinuation (b : UInt8) : Bool := 0x80 ≤ b && b < 0xC0

/-- Whether a byte may follow the first one of a sequence of three or four. -/
def follows (first b : UInt8) : Bool :=
  if first = 0xE0 then 0xA0 ≤ b && b < 0xC0
  else if first = 0xED then 0x80 ≤ b && b < 0xA0
  else if first = 0xF0 then 0x90 ≤ b && b < 0xC0
  else if first = 0xF4 then 0x80 ≤ b && b < 0x90
  else isContinuation b

/-- The number of bytes one replacement character stands for where no character begins: as many
as could begin one, and at least one. -/
def illFormed : List UInt8 → ℕ
  | a :: b :: rest =>
      if 0xE0 ≤ a && a < 0xF5 && follows a b then
        match rest with
        | c :: _ => if 0xF0 ≤ a && isContinuation c then 3 else 2
        | [] => 2
      else 1
  | _ => 1

/-- Decode at most `fuel` characters. -/
def decodeFrom : ℕ → List UInt8 → List Char
  | 0, _ => []
  | _, [] => []
  | fuel + 1, a :: rest =>
      match firstChar (a :: rest) with
      | some c => c :: decodeFrom fuel ((a :: rest).drop c.utf8Size)
      | none => Char.ofNat 0xFFFD :: decodeFrom fuel ((a :: rest).drop (illFormed (a :: rest)))

/-- `bytes.decode(errors="replace")`. -/
def decodeReplace (raw : List UInt8) : List Char := decodeFrom raw.length raw

theorem utf8_cons (c : Char) (rest : List Char) :
    utf8 (c :: rest) = String.utf8EncodeChar c ++ utf8 rest := List.flatMap_cons

theorem firstChar_utf8 (c : Char) (rest : List UInt8) :
    firstChar (String.utf8EncodeChar c ++ rest) = some c := by
  rw [firstChar, List.toByteArray_append]
  exact ByteArray.utf8DecodeChar?_utf8EncodeChar_append

theorem decodeFrom_utf8 {fuel : ℕ} {content : List Char}
    (enough : (utf8 content).length ≤ fuel) : decodeFrom fuel (utf8 content) = content := by
  induction content generalizing fuel with
  | nil => cases fuel <;> rfl
  | cons c rest ih =>
      rw [utf8_cons] at enough ⊢
      have size := String.length_utf8EncodeChar c
      have positive := c.utf8Size_pos
      rw [List.length_append, size] at enough
      cases fuel with
      | zero => omega
      | succ fuel =>
          have read := firstChar_utf8 c (utf8 rest)
          cases whole : String.utf8EncodeChar c ++ utf8 rest with
          | nil =>
              have lengths := congrArg List.length whole
              rw [List.length_append, size, List.length_nil] at lengths
              omega
          | cons a later =>
              rw [whole] at read
              rw [decodeFrom, read, ← whole]
              have cut : (String.utf8EncodeChar c ++ utf8 rest).drop c.utf8Size = utf8 rest := by
                rw [← size, List.drop_left]
              simp only [cut, ih (show (utf8 rest).length ≤ fuel by omega)]

/-- **What UTF-8 encodes is decoded.** -/
theorem decodeReplace_utf8 (content : List Char) : decodeReplace (utf8 content) = content :=
  decodeFrom_utf8 (Nat.le_refl _)

theorem utf8_injective : Function.Injective utf8 := by
  intro first second same
  rw [← decodeReplace_utf8 first, same, decodeReplace_utf8]

/-! ## Quoting -/

def hexUpper (n : ℕ) : Char := if n < 10 then Char.ofNat (n + 48) else Char.ofNat (n + 55)

/-- `%XX`. -/
def percent (b : UInt8) : List Char := ['%', hexUpper (b.toNat / 16), hexUpper (b.toNat % 16)]

/-- The letters, the digits and `_.-~`. -/
def isAlwaysSafe (c : Char) : Bool := c.isAlphanum || c ∈ ['_', '.', '-', '~']

def quoteByte (safe : List Char) (b : UInt8) : List Char :=
  if b < 0x80 ∧ (isAlwaysSafe (Char.ofNat b.toNat) ∨ Char.ofNat b.toNat ∈ safe) then
    [Char.ofNat b.toNat]
  else percent b

/-- `quote(content, safe)`. -/
def quote (safe : List Char) (content : List Char) : List Char :=
  (utf8 content).flatMap (quoteByte safe)

/-! ## Reading the escapes -/

/-- The bytes of a text, an escape standing for one. -/
def unquoteBytes : List Char → List UInt8
  | [] => []
  | '%' :: a :: b :: rest =>
      match hexValue a, hexValue b with
      | some high, some low => UInt8.ofNat (high * 16 + low) :: unquoteBytes rest
      | _, _ => String.utf8EncodeChar '%' ++ unquoteBytes (a :: b :: rest)
  | c :: rest => String.utf8EncodeChar c ++ unquoteBytes rest

def isAscii (c : Char) : Bool := c.toNat < 0x80

/-- The text with the escapes in every run of ASCII read, the first of which continues `run`. -/
def unquoteRuns (run : List Char) : List Char → List Char
  | [] => decodeReplace (unquoteBytes run)
  | c :: rest =>
      if isAscii c then unquoteRuns (run ++ [c]) rest
      else decodeReplace (unquoteBytes run) ++ c :: unquoteRuns [] rest

/-- `unquote(content)`. -/
def unquote (content : List Char) : List Char :=
  if '%' ∈ content then unquoteRuns [] content else content

theorem hexValue_hexUpper {n : ℕ} (small : n < 16) : hexValue (hexUpper n) = some n := by
  have each : ∀ n < 16, hexValue (hexUpper n) = some n := by decide
  exact each n small

theorem unquoteBytes_cons {c : Char} (plain : c ≠ '%') (rest : List Char) :
    unquoteBytes (c :: rest) = String.utf8EncodeChar c ++ unquoteBytes rest := by
  rw [unquoteBytes]
  intro a b rest' percent_
  exact absurd percent_ plain

theorem unquoteBytes_percent (b : UInt8) (rest : List Char) :
    unquoteBytes (percent b ++ rest) = b :: unquoteBytes rest := by
  have bound : b.toNat < 256 := b.toNat_lt
  have high := hexValue_hexUpper (show b.toNat / 16 < 16 by omega)
  have low := hexValue_hexUpper (show b.toNat % 16 < 16 by omega)
  have whole : UInt8.ofNat (b.toNat / 16 * 16 + b.toNat % 16) = b := by
    rw [Nat.div_add_mod', UInt8.ofNat_toNat]
  rw [percent, List.cons_append, List.cons_append, List.cons_append, List.nil_append,
    unquoteBytes, high, low]
  simp only [whole]

theorem val_ofNat (b : UInt8) : (Char.ofNat b.toNat).val = b.toUInt32 := by
  have bound : b.toNat < 256 := b.toNat_lt
  have valid : b.toNat.isValidChar := Or.inl (by omega)
  rw [Char.ofNat, dif_pos valid]
  rfl

/-- The encoding of an ASCII character. -/
theorem utf8EncodeChar_ofNat {b : UInt8} (small : b < 0x80) :
    String.utf8EncodeChar (Char.ofNat b.toNat) = [b] := by
  have size : (Char.ofNat b.toNat).utf8Size = 1 := by
    rw [Char.utf8Size_eq_one_iff, val_ofNat, UInt32.le_iff_toNat_le]
    exact Nat.le_of_lt_succ (UInt8.lt_iff_toNat_lt.mp small)
  rw [String.utf8EncodeChar_eq_singleton size, val_ofNat, UInt8.toUInt8_toUInt32]

/-! ## What is quoted is read back -/

section RoundTrip

variable {safe : List Char}

theorem isAscii_percent {b : UInt8} {c : Char} (member : c ∈ percent b) : isAscii c = true := by
  have bound : b.toNat < 256 := b.toNat_lt
  have each : ∀ n < 16, isAscii (hexUpper n) = true := by decide
  simp only [percent, List.mem_cons, List.not_mem_nil, or_false] at member
  rcases member with rfl | rfl | rfl
  · rfl
  · exact each _ (by omega)
  · exact each _ (by omega)

theorem isAscii_quoteByte {b : UInt8} {c : Char} (member : c ∈ quoteByte safe b) :
    isAscii c = true := by
  unfold quoteByte at member
  split at member
  · rename_i kept
    obtain rfl := List.mem_singleton.mp member
    rw [isAscii, Char.toNat, val_ofNat]
    exact decide_eq_true (UInt8.lt_iff_toNat_lt.mp kept.1)
  · exact isAscii_percent member

/-- Quoted text is ASCII. -/
theorem isAscii_quote {content : List Char} {c : Char} (member : c ∈ quote safe content) :
    isAscii c = true := by
  obtain ⟨b, _, inside⟩ := List.mem_flatMap.mp member
  exact isAscii_quoteByte inside

theorem unquoteBytes_quoteByte (plain : '%' ∉ safe) (b : UInt8) (rest : List Char) :
    unquoteBytes (quoteByte safe b ++ rest) = b :: unquoteBytes rest := by
  unfold quoteByte
  split
  · rename_i kept
    have other : Char.ofNat b.toNat ≠ '%' := by
      intro percent_
      rcases kept.2 with always | also
      · rw [percent_] at always
        exact absurd always (by decide)
      · exact plain (percent_ ▸ also)
    rw [List.singleton_append, unquoteBytes_cons other, utf8EncodeChar_ofNat kept.1]
    rfl
  · exact unquoteBytes_percent b rest

theorem unquoteBytes_quote (plain : '%' ∉ safe) (content : List Char) :
    unquoteBytes (quote safe content) = utf8 content := by
  have bytes : ∀ raw : List UInt8, unquoteBytes (raw.flatMap (quoteByte safe)) = raw := by
    intro raw
    induction raw with
    | nil => rfl
    | cons b raw ih => rw [List.flatMap_cons, unquoteBytes_quoteByte plain, ih]
  exact bytes (utf8 content)

/-- A text of ASCII alone is one run. -/
theorem unquoteRuns_ascii {content : List Char} (ascii : ∀ c ∈ content, isAscii c = true)
    (run : List Char) :
    unquoteRuns run content = decodeReplace (unquoteBytes (run ++ content)) := by
  induction content generalizing run with
  | nil => rw [unquoteRuns, List.append_nil]
  | cons c rest ih =>
      rw [unquoteRuns, if_pos (ascii c List.mem_cons_self),
        ih (fun d member => ascii d (List.mem_cons_of_mem c member)), List.append_assoc,
        List.singleton_append]

/-- Where there is no escape, the bytes of a text are its encoding. -/
theorem unquoteBytes_of_notMem {content : List Char} (plain : '%' ∉ content) :
    unquoteBytes content = utf8 content := by
  induction content with
  | nil => rfl
  | cons c rest ih =>
      rw [List.mem_cons, not_or] at plain
      rw [unquoteBytes_cons (Ne.symm plain.1), ih plain.2, utf8_cons]

/-- **What is quoted is read back**, whatever else is safe. -/
theorem unquote_quote (plain : '%' ∉ safe) (content : List Char) :
    unquote (quote safe content) = content := by
  rw [unquote]
  split
  · rw [unquoteRuns_ascii (fun c member => isAscii_quote member), List.nil_append,
      unquoteBytes_quote plain, decodeReplace_utf8]
  · rename_i escapes
    have same := unquoteBytes_of_notMem escapes
    rw [unquoteBytes_quote plain] at same
    exact (utf8_injective same).symm

end RoundTrip

/-! ## The characters of quoted text -/

theorem mem_quoteByte {safe : List Char} {b : UInt8} {c : Char} (member : c ∈ quoteByte safe b) :
    isAlwaysSafe c = true ∨ c ∈ safe ∨ c = '%' := by
  have bound : b.toNat < 256 := b.toNat_lt
  have each : ∀ n < 16, isAlwaysSafe (hexUpper n) = true := by decide
  unfold quoteByte at member
  split at member
  · rename_i kept
    obtain rfl := List.mem_singleton.mp member
    exact kept.2.imp_right .inl
  · simp only [percent, List.mem_cons, List.not_mem_nil, or_false] at member
    rcases member with rfl | rfl | rfl
    · exact .inr (.inr rfl)
    · exact .inl (each _ (by omega))
    · exact .inl (each _ (by omega))

/-- **What quoted text is made of**: the letters, the digits and `_.-~`, what else is safe, and
the percent sign. -/
theorem mem_quote {safe content : List Char} {c : Char} (member : c ∈ quote safe content) :
    isAlwaysSafe c = true ∨ c ∈ safe ∨ c = '%' := by
  obtain ⟨b, _, inside⟩ := List.mem_flatMap.mp member
  exact mem_quoteByte inside

end PercentEncoding
