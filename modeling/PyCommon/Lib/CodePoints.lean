import Mathlib.Data.List.Chain
import PyCommon.Lib.Numerals

/-!
# Code points

Text as the list of its code points, in which, as in a Python `str`, a surrogate may stand
alone, and the encodings UTF-8, UTF-16 and UTF-32. The decoders take the encoding of a lone
surrogate, which the error handler `surrogatepass` allows; the strict UTF-8 decoder does not.

Text of ASCII code points alone is its own encoding (`encodeUtf8_ascii`,
`decodeUtf8_ascii`).
-/

set_option autoImplicit false

namespace CodePoints

abbrev Text := List ℕ

def code (c : Char) : ℕ := c.toNat

def text (literal : String) : Text := literal.toList.map Char.toNat

def isHigh (c : ℕ) : Bool := 0xD800 ≤ c ∧ c < 0xDC00

def isLow (c : ℕ) : Bool := 0xDC00 ≤ c ∧ c < 0xE000

def isSurrogate (c : ℕ) : Bool := isHigh c || isLow c

/-- A code point that is a Unicode character. -/
def isScalar (c : ℕ) : Bool := c < 0x110000 && !isSurrogate c

/-- `str.lower` on ASCII. -/
def asciiLower (content : Text) : Text :=
  content.map fun c => if 65 ≤ c ∧ c ≤ 90 then c + 32 else c

/-! ## Escapes -/

/-- The escape of a number in so many hexadecimal digits. -/
def hexEscape (letter : Char) (width n : ℕ) : Text :=
  code '\\' :: code letter :: (Numerals.printHex width n).map code

theorem ascii_of_mem_hexEscape {letter : Char} {width n c : ℕ} (plain : code letter < 0x80)
    (member : c ∈ hexEscape letter width n) : c < 0x80 := by
  have digits : ∀ n < 16, code (Numerals.hexDigit n) < 0x80 := by decide
  rcases List.mem_cons.mp member with rfl | member
  · decide
  rcases List.mem_cons.mp member with rfl | member
  · exact plain
  obtain ⟨digit, printed, rfl⟩ := List.mem_map.mp member
  obtain ⟨value, small, rfl⟩ := Numerals.exists_of_mem_printHex printed
  exact digits value small

/-! ## Surrogate pairs -/

/-- The first unit of the pair for a code point from `0x10000` on. -/
def high (c : ℕ) : ℕ := 0xD800 + (c - 0x10000) / 0x400

/-- The second unit of the pair. -/
def low (c : ℕ) : ℕ := 0xDC00 + (c - 0x10000) % 0x400

def combine (first second : ℕ) : ℕ := 0x10000 + (first - 0xD800) * 0x400 + (second - 0xDC00)

/-- Join the pairs in a text, each of whose units says whether it may be half of a pair. -/
def join : List (ℕ × Bool) → Text
  | [] => []
  | [(unit, _)] => [unit]
  | (unit, half) :: (next, nextHalf) :: rest =>
      if half && nextHalf && isHigh unit && isLow next then combine unit next :: join rest
      else unit :: join ((next, nextHalf) :: rest)

theorem join_cons {unit : ℕ} {half : Bool} (rest : List (ℕ × Bool))
    (alone : (half && isHigh unit) = false) : join ((unit, half) :: rest) = unit :: join rest := by
  cases rest with
  | nil => rfl
  | cons next rest =>
      obtain ⟨next, nextHalf⟩ := next
      rw [join, if_neg]
      intro pair
      simp only [Bool.and_eq_true] at pair
      rw [pair.1.1.1, pair.1.2] at alone
      cases alone

theorem join_pair {c : ℕ} (large : 0x10000 ≤ c) (small : c < 0x110000) (rest : List (ℕ × Bool)) :
    join ((high c, true) :: (low c, true) :: rest) = c :: join rest := by
  have first : isHigh (high c) = true := by
    rw [isHigh, high, decide_eq_true_iff]
    omega
  have second : isLow (low c) = true := by
    rw [isLow, low, decide_eq_true_iff]
    omega
  have whole : combine (high c) (low c) = c := by
    unfold combine high low
    omega
  rw [join, first, second, whole]
  rfl

/-- The text with the pairs in it joined. -/
def joinPairs (content : Text) : Text := join (content.map fun unit => (unit, true))

/-- No pair is in the text: no first half stands before a second one. -/
def Apart (content : Text) : Prop := content.IsChain fun c d => ¬ (isHigh c ∧ isLow d)

instance (content : Text) : Decidable (Apart content) :=
  inferInstanceAs (Decidable (content.IsChain fun c d => ¬ (isHigh c ∧ isLow d)))

theorem joinPairs_cons {c : ℕ} (alone : isHigh c = false) (rest : Text) :
    joinPairs (c :: rest) = c :: joinPairs rest := by
  rw [joinPairs, List.map_cons, join_cons]
  · rfl
  · rw [alone, Bool.and_false]

theorem joinPairs_singleton (c : ℕ) : joinPairs [c] = [c] := rfl

theorem joinPairs_pair {c d : ℕ} (first : isHigh c = true) (second : isLow d = true) (rest : Text) :
    joinPairs (c :: d :: rest) = combine c d :: joinPairs rest := by
  simp only [joinPairs, List.map_cons, join, first, second, Bool.and_self, if_true]

theorem joinPairs_apart {c d : ℕ} (apart : ¬ (isHigh c ∧ isLow d)) (rest : Text) :
    joinPairs (c :: d :: rest) = c :: joinPairs (d :: rest) := by
  simp only [joinPairs, List.map_cons, join, Bool.and_self, Bool.true_and, Bool.and_eq_true]
  rw [if_neg apart]

theorem length_joinPairs_le : ∀ content : Text, (joinPairs content).length ≤ content.length
  | [] => Nat.le_refl 0
  | [_] => Nat.le_refl 1
  | c :: d :: rest => by
      by_cases pair : isHigh c ∧ isLow d
      · have shorter := length_joinPairs_le rest
        rw [joinPairs_pair pair.1 pair.2]
        simp only [List.length_cons]
        omega
      · have shorter := length_joinPairs_le (d :: rest)
        rw [joinPairs_apart pair, List.length_cons, List.length_cons]
        exact Nat.succ_le_succ shorter

/-- **A text is unchanged exactly if no pair is in it.** -/
theorem joinPairs_eq_self_iff : ∀ content : Text, joinPairs content = content ↔ Apart content
  | [] => ⟨fun _ => List.IsChain.nil, fun _ => rfl⟩
  | [c] => ⟨fun _ => List.IsChain.singleton c, fun _ => rfl⟩
  | c :: d :: rest => by
      rw [Apart, List.isChain_cons_cons]
      by_cases pair : isHigh c ∧ isLow d
      · have shorter := length_joinPairs_le rest
        rw [joinPairs_pair pair.1 pair.2]
        constructor
        · intro same
          have lengths := congrArg List.length same
          simp only [List.length_cons] at lengths
          omega
        · exact fun both => absurd pair both.1
      · rw [joinPairs_apart pair, List.cons_inj_right, joinPairs_eq_self_iff (d :: rest), Apart]
        exact ⟨fun later => ⟨pair, later⟩, And.right⟩

theorem combine_bounds {c d : ℕ} (first : isHigh c = true) (second : isLow d = true) :
    0x10000 ≤ combine c d ∧ combine c d < 0x110000 := by
  rw [isHigh, decide_eq_true_iff] at first
  rw [isLow, decide_eq_true_iff] at second
  unfold combine
  omega

/-- What begins a text whose pairs are joined is no second half, unless it began the text. -/
theorem head?_joinPairs {content : Text} {d : ℕ} (begins : (joinPairs content).head? = some d)
    (second : isLow d = true) : content.head? = some d := by
  match content with
  | [] => exact begins
  | [c] => exact begins
  | c :: e :: rest =>
      by_cases pair : isHigh c ∧ isLow e
      · rw [joinPairs_pair pair.1 pair.2, List.head?_cons] at begins
        have bounds := combine_bounds pair.1 pair.2
        rw [isLow, decide_eq_true_iff, ← Option.some.inj begins] at second
        omega
      · rwa [joinPairs_apart pair] at begins

/-- No pair is left. -/
theorem apart_joinPairs : ∀ content : Text, Apart (joinPairs content)
  | [] => List.IsChain.nil
  | [c] => List.IsChain.singleton c
  | c :: d :: rest => by
      by_cases pair : isHigh c ∧ isLow d
      · have later := apart_joinPairs rest
        have bounds := combine_bounds pair.1 pair.2
        have whole : isHigh (combine c d) = false := by
          rw [isHigh, decide_eq_false_iff_not]
          omega
        rw [joinPairs_pair pair.1 pair.2]
        refine List.isChain_cons.mpr ⟨fun e _ both => ?_, later⟩
        rw [whole] at both
        exact Bool.false_ne_true both.1
      · have later := apart_joinPairs (d :: rest)
        rw [joinPairs_apart pair]
        refine List.isChain_cons.mpr ⟨fun e next both => ?_, later⟩
        have same : (d :: rest).head? = some e := head?_joinPairs next both.2
        rw [List.head?_cons, Option.some.injEq] at same
        rw [← same] at both
        exact pair both

theorem valid_joinPairs : ∀ {content : Text}, (∀ c ∈ content, c < 0x110000) →
    ∀ c ∈ joinPairs content, c < 0x110000
  | [], valid => valid
  | [c], valid => by rwa [joinPairs_singleton]
  | c :: d :: rest, valid => by
      intro e member
      by_cases pair : isHigh c ∧ isLow d
      · rw [joinPairs_pair pair.1 pair.2] at member
        rcases List.mem_cons.mp member with here | later
        · rw [here]
          exact (combine_bounds pair.1 pair.2).2
        · have inner : ∀ f ∈ rest, f < 0x110000 := fun f inside =>
            valid f (List.mem_cons_of_mem c (List.mem_cons_of_mem d inside))
          exact valid_joinPairs inner e later
      · rw [joinPairs_apart pair] at member
        rcases List.mem_cons.mp member with rfl | later
        · exact valid e List.mem_cons_self
        · exact valid_joinPairs (fun f inside => valid f (List.mem_cons_of_mem c inside)) e later

/-! ## Encodings -/

/-- The UTF-8 encoding of a code point. -/
def utf8 (c : ℕ) : Option (List UInt8) :=
  if isSurrogate c then none
  else if c < 0x80 then some [UInt8.ofNat c]
  else if c < 0x800 then some [UInt8.ofNat (0xC0 + c / 64), UInt8.ofNat (0x80 + c % 64)]
  else if c < 0x10000 then
    some [UInt8.ofNat (0xE0 + c / 4096), UInt8.ofNat (0x80 + c / 64 % 64),
      UInt8.ofNat (0x80 + c % 64)]
  else
    some [UInt8.ofNat (0xF0 + c / 262144), UInt8.ofNat (0x80 + c / 4096 % 64),
      UInt8.ofNat (0x80 + c / 64 % 64), UInt8.ofNat (0x80 + c % 64)]

/-- Strict UTF-8, which has no encoding for a surrogate. -/
def encodeUtf8 : Text → Option (List UInt8)
  | [] => some []
  | c :: rest => do
      let first ← utf8 c
      let later ← encodeUtf8 rest
      return first ++ later

/-- The six bits of a byte that continues a sequence. -/
def continuation (b : UInt8) : Option ℕ :=
  if 0x80 ≤ b ∧ b < 0xC0 then some (b.toNat - 0x80) else none

/-- The code point of the bytes of one sequence, and the bytes after it. -/
def sequence (a : UInt8) (rest : List UInt8) : Option (ℕ × List UInt8) :=
  if a < 0x80 then some (a.toNat, rest)
  else if a < 0xC0 then none
  else if a < 0xE0 then
    match rest with
    | b :: rest => do
        let point := (a.toNat - 0xC0) * 64 + (← continuation b)
        if 0x80 ≤ point then some (point, rest) else none
    | _ => none
  else if a < 0xF0 then
    match rest with
    | b :: c :: rest => do
        let point := (a.toNat - 0xE0) * 4096 + (← continuation b) * 64 + (← continuation c)
        if 0x800 ≤ point then some (point, rest) else none
    | _ => none
  else
    match rest with
    | b :: c :: d :: rest => do
        let point := (a.toNat - 0xF0) * 262144 + (← continuation b) * 4096
          + (← continuation c) * 64 + (← continuation d)
        if 0x10000 ≤ point ∧ point < 0x110000 then some (point, rest) else none
    | _ => none

/-- Decode at most `fuel` sequences; `strict` refuses surrogates. -/
def decodeUtf8From (strict : Bool) : ℕ → List UInt8 → Option Text
  | _, [] => some []
  | 0, _ :: _ => none
  | fuel + 1, a :: rest => do
      let (point, rest) ← sequence a rest
      if strict && isSurrogate point then none
      else
        let later ← decodeUtf8From strict fuel rest
        return point :: later

def decodeUtf8 (strict : Bool) (raw : List UInt8) : Option Text :=
  decodeUtf8From strict raw.length raw

/-- The number that bytes stand for, the most significant first. -/
def number (bytes : List UInt8) : ℕ := bytes.foldl (fun n b => n * 256 + b.toNat) 0

/-- The units of two bytes in a byte string. -/
def units (little : Bool) : List UInt8 → Option (List ℕ)
  | [] => some []
  | [_] => none
  | a :: b :: rest => do
      let later ← units little rest
      return number (if little then [b, a] else [a, b]) :: later

def decodeUtf16 (little : Bool) (raw : List UInt8) : Option Text :=
  (units little raw).map fun found => join (found.map fun unit => (unit, true))

def decodeUtf32 (little : Bool) : List UInt8 → Option Text
  | [] => some []
  | a :: b :: c :: d :: rest => do
      let point := number (if little then [d, c, b, a] else [a, b, c, d])
      let later ← decodeUtf32 little rest
      if point < 0x110000 then some (point :: later) else none
  | _ => none

theorem text_injective : Function.Injective text := by
  intro first second same
  have toNat_injective : Function.Injective Char.toNat := fun c d same => Char.toNat_inj.mp same
  exact String.toList_inj.mp (toNat_injective.list_map same)

/-- A character is no surrogate. -/
theorem isSurrogate_toNat (c : Char) : isSurrogate c.toNat = false := by
  have valid : c.toNat < 0xD800 ∨ 0xDFFF < c.toNat ∧ c.toNat < 0x110000 := c.valid
  simp only [isSurrogate, isHigh, isLow, Bool.or_eq_false_iff, decide_eq_false_iff_not]
  omega

/-- The text of characters gives the characters back. -/
theorem map_ofNat_code (chars : List Char) : (chars.map code).map Char.ofNat = chars := by
  rw [List.map_map]
  exact (List.map_congr_left fun c _ => Char.ofNat_toNat c).trans (List.map_id chars)

theorem toNat_ofNat {c : ℕ} (scalar : isScalar c = true) : (Char.ofNat c).toNat = c := by
  have valid : c.isValidChar := by
    simp only [isScalar, isSurrogate, isHigh, isLow, Bool.and_eq_true, Bool.not_eq_true',
      Bool.or_eq_false_iff, decide_eq_true_eq, decide_eq_false_iff_not] at scalar
    simp only [Nat.isValidChar]
    omega
  have built : Char.ofNat c = Char.ofNatAux c valid := dif_pos valid
  rw [built]
  rfl

/-- Text without surrogates is that of a string. -/
theorem text_ofList {content : Text} (scalar : ∀ c ∈ content, isScalar c = true) :
    text (String.ofList (content.map Char.ofNat)) = content := by
  rw [text, String.toList_ofList, List.map_map]
  exact (List.map_congr_left fun c member => toNat_ofNat (scalar c member)).trans
    (List.map_id content)

/-- **What strict UTF-8 encodes.** Text without surrogates, and no other. -/
theorem isSome_encodeUtf8 {content : Text} :
    (encodeUtf8 content).isSome ↔ ∀ c ∈ content, isSurrogate c = false := by
  induction content with
  | nil => simp [encodeUtf8]
  | cons c rest ih =>
      rw [List.forall_mem_cons, ← ih]
      cases surrogate : isSurrogate c with
      | true => simp [encodeUtf8, utf8, surrogate]
      | false =>
          obtain ⟨first, encoded⟩ : ∃ first, utf8 c = some first := by
            simp only [utf8, surrogate, Bool.false_eq_true, if_false]
            split
            · exact ⟨_, rfl⟩
            · split
              · exact ⟨_, rfl⟩
              · split
                · exact ⟨_, rfl⟩
                · exact ⟨_, rfl⟩
          have bound : encodeUtf8 (c :: rest) = (encodeUtf8 rest).map (first ++ ·) := by
            rw [encodeUtf8, encoded, Option.map_eq_bind]
            rfl
          rw [bound, Option.isSome_map]
          exact ⟨fun later => ⟨rfl, later⟩, fun both => both.2⟩

/-! ## ASCII -/

theorem isScalar_of_ascii {c : ℕ} (small : c < 0x80) : isScalar c = true := by
  rw [isScalar, isSurrogate, isHigh, isLow, decide_eq_true (by omega), decide_eq_false (by omega),
    decide_eq_false (by omega)]
  rfl

theorem encodeUtf8_ascii {content : Text} (ascii : ∀ c ∈ content, c < 0x80) :
    encodeUtf8 content = some (content.map UInt8.ofNat) := by
  induction content with
  | nil => rfl
  | cons c rest ih =>
      have small := ascii c List.mem_cons_self
      have plain : utf8 c = some [UInt8.ofNat c] := by
        have single : isSurrogate c = false := by
          rw [isSurrogate, isHigh, isLow, decide_eq_false (by omega), decide_eq_false (by omega)]
          rfl
        rw [utf8, single, if_neg Bool.false_ne_true, if_pos small]
      rw [encodeUtf8, plain, ih fun c member => ascii c (List.mem_cons_of_mem _ member)]
      rfl

theorem decodeUtf8_ascii (strict : Bool) {raw : List UInt8} (ascii : ∀ b ∈ raw, b < 0x80) :
    decodeUtf8 strict raw = some (raw.map UInt8.toNat) := by
  rw [decodeUtf8]
  induction raw with
  | nil => rfl
  | cons a rest ih =>
      have small := ascii a List.mem_cons_self
      have bound : a.toNat < 0x80 := UInt8.lt_iff_toNat_lt.mp small
      have single : isSurrogate a.toNat = false := by
        rw [isSurrogate, isHigh, isLow, decide_eq_false (by omega), decide_eq_false (by omega)]
        rfl
      have first : sequence a rest = some (a.toNat, rest) := by
        simp only [sequence, if_pos small]
      have later := ih fun b member => ascii b (List.mem_cons_of_mem _ member)
      simp only [List.length_cons, decodeUtf8From, first, single, Bool.and_false, later,
        Option.bind_eq_bind, Option.bind_some, Bool.false_eq_true, if_false]
      rfl

end CodePoints
