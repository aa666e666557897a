import Mathlib.Algebra.Group.Nat.Defs
import Mathlib.Data.Int.Notation
import Mathlib.Data.List.Basic

/-!
# Number literals

The decimal text of an integer and the reading of such a text as Python's `int` reads
it: blanks around the literal, a sign, and digits between which single underscores may
stand. An interpreter limits the number of decimal digits it reads. A literal to the base
sixteen may begin with `0x`, and has no such limit.

What is printed is read back (`parse_print`), whatever the limit is, if the number has
no more digits than that, and so are hexadecimal digits of any width
(`parseHex_printHex`).
-/

set_option autoImplicit false

namespace Numerals

/-- The blanks of ASCII. -/
def isSpace (c : Char) : Bool := c = ' ' || (9 ≤ c.toNat && c.toNat ≤ 13)

/-- Drop the blanks on both sides. -/
def strip (text : List Char) : List Char :=
  ((text.dropWhile isSpace).reverse.dropWhile isSpace).reverse

/-- The digits of a literal without its underscores. -/
def digits (isDigit : Char → Bool) : List Char → Option (List Char)
  | [] => none
  | [c] => if isDigit c then some [c] else none
  | c :: '_' :: rest => if isDigit c then (digits isDigit rest).map (c :: ·) else none
  | c :: next :: rest =>
      if isDigit c then (digits isDigit (next :: rest)).map (c :: ·) else none

/-- The number that a literal without a sign stands for. -/
def natural (limit : ℕ) (text : List Char) : Option ℕ :=
  match digits Char.isDigit text with
  | some found => if found.length ≤ limit then some (Nat.ofDigitChars 10 found 0) else none
  | none => none

/-- Read a literal with blanks and a sign, whose digits `natural` reads. -/
def signed (natural : List Char → Option ℕ) (text : List Char) : Option ℤ :=
  match strip text with
  | '-' :: rest => (natural rest).map fun n : ℕ => -(n : ℤ)
  | '+' :: rest => (natural rest).map fun n : ℕ => (n : ℤ)
  | rest => (natural rest).map fun n : ℕ => (n : ℤ)

/-- Read a decimal literal. -/
def parse (limit : ℕ) (text : List Char) : Option ℤ := signed (natural limit) text

/-- The decimal text of an integer. -/
def print : ℤ → List Char
  | .ofNat n => Nat.toDigits 10 n
  | .negSucc n => '-' :: Nat.toDigits 10 (n + 1)

/-! ## The base sixteen -/

def hexDigit (n : ℕ) : Char := if n < 10 then Char.ofNat (n + 48) else Char.ofNat (n + 87)

def hexValue (c : Char) : Option ℕ :=
  if '0' ≤ c ∧ c ≤ '9' then some (c.toNat - 48)
  else if 'a' ≤ c ∧ c ≤ 'f' then some (c.toNat - 87)
  else if 'A' ≤ c ∧ c ≤ 'F' then some (c.toNat - 55)
  else none

/-- The last `width` hexadecimal digits of a number. -/
def printHex : ℕ → ℕ → List Char
  | 0, _ => []
  | width + 1, n => printHex width (n / 16) ++ [hexDigit (n % 16)]

/-- Append hexadecimal digits to a number. -/
def hexFrom (n : ℕ) : List Char → Option ℕ
  | [] => some n
  | c :: rest =>
      match hexValue c with
      | some digit => hexFrom (n * 16 + digit) rest
      | none => none

/-- Drop the prefix of a literal, after which one underscore may stand. -/
def unprefixed : List Char → List Char
  | '0' :: 'x' :: '_' :: rest => rest
  | '0' :: 'X' :: '_' :: rest => rest
  | '0' :: 'x' :: rest => rest
  | '0' :: 'X' :: rest => rest
  | rest => rest

def isHexDigit (c : Char) : Bool := (hexValue c).isSome

/-- The number that a hexadecimal literal without a sign stands for. -/
def hexNatural (text : List Char) : Option ℕ :=
  match digits isHexDigit (unprefixed text) with
  | some found => hexFrom 0 found
  | none => none

/-- Read a hexadecimal literal. -/
def parseHex (text : List Char) : Option ℤ := signed hexNatural text

/-! ## What is printed is read back -/

theorem digits_of_forall {isDigit : Char → Bool} (plain : isDigit '_' = false) {text : List Char}
    (nonempty : text ≠ []) (each : ∀ c ∈ text, isDigit c) : digits isDigit text = some text := by
  induction text with
  | nil => exact absurd rfl nonempty
  | cons c rest ih =>
      have first : isDigit c := each c List.mem_cons_self
      cases rest with
      | nil => rw [digits, if_pos first]
      | cons next rest =>
          have later := ih (List.cons_ne_nil _ _) fun d member =>
            each d (List.mem_cons_of_mem c member)
          have digit : isDigit next := each next (List.mem_cons_of_mem c List.mem_cons_self)
          have other : next ≠ '_' := by
            rintro rfl
            rw [plain] at digit
            cases digit
          rw [digits, if_pos first, later, Option.map_some]
          exact other

theorem isDigit_of_mem_toDigits {n : ℕ} {c : Char} (member : c ∈ Nat.toDigits 10 n) :
    c.isDigit := Nat.isDigit_of_mem_toDigits (by decide) (by decide) member

/-- Only the digits of zero begin with a zero. -/
theorem eq_zero_of_head_toDigits {n : ℕ} (zero : (Nat.toDigits 10 n).head? = some '0') :
    n = 0 := by
  induction n using Nat.strongRecOn with
  | ind n ih =>
      by_cases small : n < 10
      · have each : ∀ n < 10, n.digitChar = '0' → n = 0 := by decide
        rw [Nat.toDigits_of_lt_base small] at zero
        exact each n small (Option.some.inj zero)
      · have large : 10 ≤ n := Nat.le_of_not_lt small
        have nonempty : Nat.toDigits 10 (n / 10) ≠ [] := Nat.toDigits_ne_nil
        rw [Nat.toDigits_of_base_le (by decide) large,
          List.head?_append_of_ne_nil _ nonempty] at zero
        have quotient := ih (n / 10) (by omega) zero
        omega

theorem natural_toDigits {limit n : ℕ} (short : (Nat.toDigits 10 n).length ≤ limit) :
    natural limit (Nat.toDigits 10 n) = some n := by
  have found : digits Char.isDigit (Nat.toDigits 10 n) = some (Nat.toDigits 10 n) :=
    digits_of_forall rfl Nat.toDigits_ne_nil fun _ => isDigit_of_mem_toDigits
  simp only [natural, found, if_pos short, Nat.ofDigitChars_ten_toDigits]

theorem strip_of_ends {text : List Char} (first : ∀ c ∈ text.head?, isSpace c = false)
    (last : ∀ c ∈ text.getLast?, isSpace c = false) : strip text = text := by
  have front : text.dropWhile isSpace = text := by
    cases text with
    | nil => rfl
    | cons c rest =>
        rw [List.dropWhile_cons, if_neg]
        rw [first c rfl]
        exact Bool.false_ne_true
  have back : text.reverse.dropWhile isSpace = text.reverse := by
    rw [← List.head?_reverse] at last
    cases flipped : text.reverse with
    | nil => rfl
    | cons c rest =>
        rw [flipped] at last
        rw [List.dropWhile_cons, if_neg]
        rw [last c rfl]
        exact Bool.false_ne_true
  rw [strip, front, back, List.reverse_reverse]

theorem isSpace_of_isDigit {c : Char} (digit : c.isDigit) : isSpace c = false := by
  obtain ⟨low, high⟩ : 48 ≤ c.toNat ∧ c.toNat ≤ 57 := by
    simpa [Char.isDigit, UInt32.le_iff_toNat_le] using digit
  have plain : c ≠ ' ' := by
    rintro rfl
    cases digit
  rw [isSpace, decide_eq_false plain, Bool.false_or, Bool.and_eq_false_iff]
  exact Or.inr (decide_eq_false (by omega))

theorem isSpace_of_mem_print {k : ℤ} {c : Char} (member : c ∈ print k) : isSpace c = false := by
  cases k with
  | ofNat n => exact isSpace_of_isDigit (isDigit_of_mem_toDigits member)
  | negSucc n =>
      rcases List.mem_cons.mp member with rfl | digit
      · rfl
      · exact isSpace_of_isDigit (isDigit_of_mem_toDigits digit)

theorem strip_print (k : ℤ) : strip (print k) = print k :=
  strip_of_ends (fun _ first => isSpace_of_mem_print (List.mem_of_mem_head? first))
    fun _ last => isSpace_of_mem_print (List.mem_of_getLast? last)

theorem signed_of_plain (natural : List Char → Option ℕ) {text : List Char}
    (tight : strip text = text) (unsigned : ∀ c ∈ text, c ≠ '-' ∧ c ≠ '+') :
    signed natural text = (natural text).map fun n : ℕ => (n : ℤ) := by
  rw [signed, tight]
  split
  · exact absurd rfl (unsigned _ List.mem_cons_self).1
  · exact absurd rfl (unsigned _ List.mem_cons_self).2
  · rfl

theorem unsigned_of_isDigit {c : Char} (digit : c.isDigit) : c ≠ '-' ∧ c ≠ '+' := by
  constructor <;> rintro rfl <;> cases digit

/-- **A printed number is read back**, if the limit allows its digits. -/
theorem parse_print {limit : ℕ} {k : ℤ} (short : (Nat.toDigits 10 k.natAbs).length ≤ limit) :
    parse limit (print k) = some k := by
  have tight := strip_print k
  cases k with
  | ofNat n =>
      have plain : natural limit (Nat.toDigits 10 n) = some n := natural_toDigits short
      have unsigned : ∀ c ∈ Nat.toDigits 10 n, c ≠ '-' ∧ c ≠ '+' := fun c member =>
        unsigned_of_isDigit (isDigit_of_mem_toDigits member)
      rw [parse, signed_of_plain (natural limit) tight unsigned, print, plain]
      rfl
  | negSucc n =>
      have plain : natural limit (Nat.toDigits 10 (n + 1)) = some (n + 1) := natural_toDigits short
      rw [parse, signed, tight]
      simp only [print, plain]
      rfl

theorem hexValue_hexDigit {n : ℕ} (small : n < 16) : hexValue (hexDigit n) = some n := by
  have each : ∀ n < 16, hexValue (hexDigit n) = some n := by decide
  exact each n small

/-- No digit is a blank, a sign or the letter of the prefix. -/
theorem hexDigit_plain {n : ℕ} (small : n < 16) :
    isSpace (hexDigit n) = false ∧ (hexDigit n ≠ '-' ∧ hexDigit n ≠ '+')
      ∧ hexDigit n ≠ 'x' ∧ hexDigit n ≠ 'X' := by
  have each : ∀ n < 16, isSpace (hexDigit n) = false ∧ (hexDigit n ≠ '-' ∧ hexDigit n ≠ '+')
      ∧ hexDigit n ≠ 'x' ∧ hexDigit n ≠ 'X' := by decide
  exact each n small

theorem exists_of_mem_printHex {width n : ℕ} {c : Char} (member : c ∈ printHex width n) :
    ∃ digit < 16, c = hexDigit digit := by
  induction width generalizing n with
  | zero => cases member
  | succ width ih =>
      rcases List.mem_append.mp member with early | last
      · exact ih early
      · exact ⟨n % 16, Nat.mod_lt n (by decide), List.mem_singleton.mp last⟩

theorem length_printHex (width n : ℕ) : (printHex width n).length = width := by
  induction width generalizing n with
  | zero => rfl
  | succ width ih => rw [printHex, List.length_append, ih, List.length_singleton]

theorem hexFrom_append (n : ℕ) (front back : List Char) :
    hexFrom n (front ++ back) = (hexFrom n front).bind fun read => hexFrom read back := by
  induction front generalizing n with
  | nil => rfl
  | cons c rest ih =>
      simp only [List.cons_append, hexFrom]
      cases hexValue c with
      | none => rfl
      | some digit => exact ih _

theorem hexFrom_printHex {width n : ℕ} (small : n < 16 ^ width) (first : ℕ) :
    hexFrom first (printHex width n) = some (first * 16 ^ width + n) := by
  induction width generalizing n with
  | zero =>
      rw [Nat.pow_zero, Nat.lt_one_iff] at small
      rw [small, Nat.pow_zero, Nat.mul_one]
      rfl
  | succ width ih =>
      have shorter : n / 16 < 16 ^ width :=
        Nat.div_lt_of_lt_mul ((Nat.pow_succ' ..).symm ▸ small)
      rw [printHex, hexFrom_append, ih shorter, Option.bind_some, hexFrom,
        hexValue_hexDigit (Nat.mod_lt n (by decide))]
      simp only [hexFrom, Nat.pow_succ]
      congr 1
      have parts := Nat.div_add_mod n 16
      rw [Nat.add_mul, Nat.mul_assoc, Nat.add_assoc, Nat.mul_comm (n / 16), parts]

theorem unprefixed_of_plain {text : List Char} (letters : ∀ c ∈ text, c ≠ 'x' ∧ c ≠ 'X') :
    unprefixed text = text := by
  unfold unprefixed
  split
  · exact absurd rfl (letters 'x' (by simp)).1
  · exact absurd rfl (letters 'X' (by simp)).2
  · exact absurd rfl (letters 'x' (by simp)).1
  · exact absurd rfl (letters 'X' (by simp)).2
  · rfl

theorem hexNatural_printHex {width n : ℕ} (positive : 0 < width) (small : n < 16 ^ width) :
    hexNatural (printHex width n) = some n := by
  have nonempty : printHex width n ≠ [] := by
    rw [← List.length_pos_iff_ne_nil, length_printHex]
    exact positive
  have each : ∀ c ∈ printHex width n, isHexDigit c := by
    intro c member
    obtain ⟨digit, below, rfl⟩ := exists_of_mem_printHex member
    rw [isHexDigit, hexValue_hexDigit below]
    rfl
  have letters : ∀ c ∈ printHex width n, c ≠ 'x' ∧ c ≠ 'X' := by
    intro c member
    obtain ⟨digit, below, rfl⟩ := exists_of_mem_printHex member
    exact (hexDigit_plain below).2.2
  have found : digits isHexDigit (printHex width n) = some (printHex width n) :=
    digits_of_forall rfl nonempty each
  have read := hexFrom_printHex small 0
  rw [Nat.zero_mul, Nat.zero_add] at read
  simp only [hexNatural, unprefixed_of_plain letters, found, read]

/-- **Hexadecimal digits are read back**, whatever their number is. -/
theorem parseHex_printHex {width n : ℕ} (positive : 0 < width) (small : n < 16 ^ width) :
    parseHex (printHex width n) = some (n : ℤ) := by
  have plain : ∀ c ∈ printHex width n, isSpace c = false ∧ c ≠ '-' ∧ c ≠ '+' := by
    intro c member
    obtain ⟨digit, below, rfl⟩ := exists_of_mem_printHex member
    exact ⟨(hexDigit_plain below).1, (hexDigit_plain below).2.1⟩
  have tight : strip (printHex width n) = printHex width n :=
    strip_of_ends (fun c first => (plain c (List.mem_of_mem_head? first)).1)
      fun c last => (plain c (List.mem_of_getLast? last)).1
  rw [parseHex, signed_of_plain hexNatural tight fun c member => (plain c member).2,
    hexNatural_printHex positive small]
  rfl

end Numerals
