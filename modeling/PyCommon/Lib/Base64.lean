import Mathlib.Data.List.DropRight

/-!
# Base64 for URLs

The encoding of bytes in the alphabet that is safe in URLs, and a lenient decoder of the
kind that `binascii` has: characters outside the alphabet are skipped, the padding ends
the text where it completes a group of four, and a text that stops within a group is an
error. The decoder takes the symbols of the plain alphabet as well.

What was encoded is decoded again (`decode_encode`), and the padding is determined by the
number of symbols: it can be stripped and added again (`rdropWhile_encode`).
-/

set_option autoImplicit false

namespace Base64

/-- The padding character, `=`. -/
def pad : UInt8 := 61

/-- The symbol of six bits. -/
def symbol (n : ℕ) : UInt8 :=
  if n < 26 then UInt8.ofNat (n + 65)
  else if n < 52 then UInt8.ofNat (n + 71)
  else if n < 62 then UInt8.ofNat (n - 4)
  else if n = 62 then 45
  else 95

/-- The six bits of a symbol, of either alphabet. -/
def value (c : UInt8) : Option ℕ :=
  if 65 ≤ c ∧ c ≤ 90 then some (c.toNat - 65)
  else if 97 ≤ c ∧ c ≤ 122 then some (c.toNat - 71)
  else if 48 ≤ c ∧ c ≤ 57 then some (c.toNat + 4)
  else if c = 43 ∨ c = 45 then some 62
  else if c = 47 ∨ c = 95 then some 63
  else none

/-- The symbols of a byte string, without padding. -/
def symbols : List UInt8 → List UInt8
  | a :: b :: c :: rest =>
      symbol (a.toNat / 4) :: symbol (a.toNat % 4 * 16 + b.toNat / 16)
        :: symbol (b.toNat % 16 * 4 + c.toNat / 64) :: symbol (c.toNat % 64) :: symbols rest
  | [a, b] =>
      [symbol (a.toNat / 4), symbol (a.toNat % 4 * 16 + b.toNat / 16), symbol (b.toNat % 16 * 4)]
  | [a] => [symbol (a.toNat / 4), symbol (a.toNat % 4 * 16)]
  | [] => []

/-- The padding that `n` symbols need. -/
def padding (n : ℕ) : List UInt8 := List.replicate ((4 - n % 4) % 4) pad

def encode (raw : List UInt8) : List UInt8 := symbols raw ++ padding (symbols raw).length

/-- Decode from within a group: the number of its symbols read, their bits that no byte has
got yet, and the padding characters since the last symbol. -/
def decodeFrom (quad left pads : ℕ) : List UInt8 → Option (List UInt8)
  | [] => if quad = 0 then some [] else none
  | c :: rest =>
      if c = pad then
        if 2 ≤ quad ∧ 4 ≤ quad + (pads + 1) then some []
        else decodeFrom quad left (if 2 ≤ quad then pads + 1 else pads) rest
      else
        match value c with
        | none => decodeFrom quad left pads rest
        | some v =>
            match quad with
            | 0 => decodeFrom 1 v 0 rest
            | 1 => (decodeFrom 2 (v % 16) 0 rest).map (UInt8.ofNat (left * 4 + v / 16) :: ·)
            | 2 => (decodeFrom 3 (v % 4) 0 rest).map (UInt8.ofNat (left * 16 + v / 4) :: ·)
            | _ => (decodeFrom 0 0 0 rest).map (UInt8.ofNat (left * 64 + v) :: ·)

def decode (text : List UInt8) : Option (List UInt8) := decodeFrom 0 0 0 text

/-! ## Symbols -/

theorem value_symbol {n : ℕ} (small : n < 64) : value (symbol n) = some n := by
  have each : ∀ n < 64, value (symbol n) = some n := by decide
  exact each n small

theorem symbol_of_le {n : ℕ} (large : 63 ≤ n) : symbol n = 95 := by
  simp only [symbol]
  repeat rw [if_neg (by omega)]

theorem symbol_ne_pad (n : ℕ) : symbol n ≠ pad := by
  have each : ∀ n < 63, symbol n ≠ pad := by decide
  rcases Nat.lt_or_ge n 63 with small | large
  · exact each n small
  · rw [symbol_of_le large]
    decide

theorem symbol_lt (n : ℕ) : symbol n < 0x80 := by
  have each : ∀ n < 63, symbol n < 0x80 := by decide
  rcases Nat.lt_or_ge n 63 with small | large
  · exact each n small
  · rw [symbol_of_le large]
    decide

variable {n left pads : ℕ} {rest : List UInt8}

theorem decodeFrom_symbol_zero (small : n < 64) :
    decodeFrom 0 left pads (symbol n :: rest) = decodeFrom 1 n 0 rest := by
  simp only [decodeFrom, if_neg (symbol_ne_pad n), value_symbol small]

theorem decodeFrom_symbol_one (small : n < 64) :
    decodeFrom 1 left pads (symbol n :: rest)
      = (decodeFrom 2 (n % 16) 0 rest).map (UInt8.ofNat (left * 4 + n / 16) :: ·) := by
  simp only [decodeFrom, if_neg (symbol_ne_pad n), value_symbol small]

theorem decodeFrom_symbol_two (small : n < 64) :
    decodeFrom 2 left pads (symbol n :: rest)
      = (decodeFrom 3 (n % 4) 0 rest).map (UInt8.ofNat (left * 16 + n / 4) :: ·) := by
  simp only [decodeFrom, if_neg (symbol_ne_pad n), value_symbol small]

theorem decodeFrom_symbol_three (small : n < 64) :
    decodeFrom 3 left pads (symbol n :: rest)
      = (decodeFrom 0 0 0 rest).map (UInt8.ofNat (left * 64 + n) :: ·) := by
  simp only [decodeFrom, if_neg (symbol_ne_pad n), value_symbol small]

/-! ## What was encoded is decoded again -/

theorem ofNat_of_eq {byte : UInt8} {n : ℕ} (same : n = byte.toNat) : UInt8.ofNat n = byte := by
  rw [same, UInt8.ofNat_toNat]

theorem padding_add_four (n : ℕ) : padding (n + 4) = padding n := by
  rw [padding, Nat.add_mod_right, padding]

/-- **What was encoded is decoded again.** -/
theorem decode_encode (raw : List UInt8) : decode (encode raw) = some raw := by
  induction raw using symbols.induct with
  | case1 a b c rest ih =>
      have smallA := a.toNat_lt
      have smallB := b.toNat_lt
      have smallC := c.toNat_lt
      have first : UInt8.ofNat (a.toNat / 4 * 4 + (a.toNat % 4 * 16 + b.toNat / 16) / 16) = a :=
        ofNat_of_eq (by omega)
      have second : UInt8.ofNat ((a.toNat % 4 * 16 + b.toNat / 16) % 16 * 16
          + (b.toNat % 16 * 4 + c.toNat / 64) / 4) = b := ofNat_of_eq (by omega)
      have third : UInt8.ofNat ((b.toNat % 16 * 4 + c.toNat / 64) % 4 * 64 + c.toNat % 64) = c :=
        ofNat_of_eq (by omega)
      rw [decode, encode] at ih
      simp only [decode, encode, symbols, List.length_cons, padding_add_four, List.cons_append]
      rw [decodeFrom_symbol_zero (by omega), decodeFrom_symbol_one (by omega),
        decodeFrom_symbol_two (by omega), decodeFrom_symbol_three (by omega), ih]
      simp only [Option.map_some, first, second, third]
  | case2 a b =>
      have smallA := a.toNat_lt
      have smallB := b.toNat_lt
      have first : UInt8.ofNat (a.toNat / 4 * 4 + (a.toNat % 4 * 16 + b.toNat / 16) / 16) = a :=
        ofNat_of_eq (by omega)
      have second : UInt8.ofNat ((a.toNat % 4 * 16 + b.toNat / 16) % 16 * 16
          + b.toNat % 16 * 4 / 4) = b := ofNat_of_eq (by omega)
      simp only [decode, encode, symbols, List.length_cons, List.length_nil, List.cons_append,
        List.nil_append]
      rw [decodeFrom_symbol_zero (by omega), decodeFrom_symbol_one (by omega),
        decodeFrom_symbol_two (by omega), first, second]
      rfl
  | case3 a =>
      have smallA := a.toNat_lt
      have first : UInt8.ofNat (a.toNat / 4 * 4 + a.toNat % 4 * 16 / 16) = a :=
        ofNat_of_eq (by omega)
      simp only [decode, encode, symbols, List.length_cons, List.length_nil, List.cons_append,
        List.nil_append]
      rw [decodeFrom_symbol_zero (by omega), decodeFrom_symbol_one (by omega), first]
      rfl
  | case4 => rfl

theorem exists_of_mem_symbols {raw : List UInt8} {c : UInt8} (member : c ∈ symbols raw) :
    ∃ n, c = symbol n := by
  induction raw using symbols.induct with
  | case1 a b d rest ih =>
      simp only [symbols, List.mem_cons] at member
      rcases member with rfl | rfl | rfl | rfl | later
      · exact ⟨_, rfl⟩
      · exact ⟨_, rfl⟩
      · exact ⟨_, rfl⟩
      · exact ⟨_, rfl⟩
      · exact ih later
  | case2 a b =>
      simp only [symbols, List.mem_cons, List.not_mem_nil, or_false] at member
      rcases member with rfl | rfl | rfl <;> exact ⟨_, rfl⟩
  | case3 a =>
      simp only [symbols, List.mem_cons, List.not_mem_nil, or_false] at member
      rcases member with rfl | rfl <;> exact ⟨_, rfl⟩
  | case4 => cases member

/-- Encoded bytes are ASCII. -/
theorem lt_of_mem_encode {raw : List UInt8} {c : UInt8} (member : c ∈ encode raw) : c < 0x80 := by
  rcases List.mem_append.mp member with inside | outside
  · obtain ⟨n, rfl⟩ := exists_of_mem_symbols inside
    exact symbol_lt n
  · rw [List.eq_of_mem_replicate outside]
    decide

/-- The padding can be stripped. -/
theorem rdropWhile_encode (raw : List UInt8) :
    (encode raw).rdropWhile (· = pad) = symbols raw := by
  have stripped : ∀ n, (symbols raw ++ List.replicate n pad).rdropWhile (· = pad)
      = (symbols raw).rdropWhile (· = pad) := by
    intro n
    induction n with
    | zero => rw [List.replicate_zero, List.append_nil]
    | succ n ih =>
        rw [List.replicate_succ', ← List.append_assoc, List.rdropWhile_concat_pos, ih]
        exact decide_eq_true rfl
  rw [encode, padding, stripped]
  refine List.rdropWhile_eq_self_iff.mpr fun nonempty => ?_
  obtain ⟨n, same⟩ := exists_of_mem_symbols (List.getLast_mem nonempty)
  rw [decide_eq_true_iff, same]
  exact symbol_ne_pad n

end Base64
