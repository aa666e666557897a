import PyCommon.Lib.Json

/-!
# Python values and their `repr`

The values of Python's built-in types, from `None` to nested dictionaries, and the text that
`repr` gives of each. A dictionary is the list of its items in order. A float is given by its
`repr`: a literal with a fraction or an exponent, or `nan` or an infinity.

`repr` writes a string between apostrophes, or between quotes if there is an apostrophe and no
quote in it, and escapes what is not printable. Which code points beyond ASCII are printable is
a matter of the tables of Unicode, and a parameter.
-/

set_option autoImplicit false

namespace Python

open CodePoints (Text code text hexEscape ascii_of_mem_hexEscape)

/-! ## Values -/

/-- A `str`, as its code points. -/
structure Str where
  points : Text
  valid : ∀ c ∈ points, c < 0x110000
  deriving DecidableEq

def Digits (content : Text) : Prop := content ≠ [] ∧ ∀ c ∈ content, Json.isDigit c = true

/-- The text of a finite float, in its parts. -/
structure Literal (sign whole fraction exponent : Text) : Prop where
  signed : sign = [] ∨ sign = [code '-']
  digits : Digits whole
  /-- No zero stands before other digits. -/
  leading : whole.head? = some (code '0') → whole.length = 1
  fractional : fraction = [] ∨ ∃ digits, Digits digits ∧ fraction = code '.' :: digits
  exponential : exponent = [] ∨ ∃ sign digits, (sign = code '+' ∨ sign = code '-')
    ∧ Digits digits ∧ exponent = code 'e' :: sign :: digits
  marked : fraction ≠ [] ∨ exponent ≠ []

def IsFinite (repr : Text) : Prop :=
  ∃ sign whole fraction exponent, repr = sign ++ whole ++ fraction ++ exponent
    ∧ Literal sign whole fraction exponent

/-- The texts of the floats that are not finite. -/
def infinities : List Text := [text "nan", text "inf", text "-inf"]

instance (repr : Text) : Decidable (repr ∈ infinities) :=
  decidable_of_iff (repr = text "nan" ∨ repr = text "inf" ∨ repr = text "-inf")
    (by simp [infinities])

/-- A `float`, as its `repr`. -/
structure Floating where
  repr : Text
  shape : IsFinite repr ∨ repr ∈ infinities
  deriving DecidableEq

inductive Value where
  | none
  | bool (b : Bool)
  | int (n : ℤ)
  | float (x : Floating)
  | str (content : Str)
  | bytes (raw : List UInt8)
  | tuple (items : List Value)
  | list (items : List Value)
  | dict (items : List (Value × Value))

/-! ## The `repr` of strings -/

/-- What is written for a code point between these quotes. -/
def escape (printable : ℕ → Bool) (quote c : ℕ) : Text :=
  if c = quote ∨ c = code '\\' then [code '\\', c]
  else if c = 9 then [code '\\', code 't']
  else if c = 10 then [code '\\', code 'n']
  else if c = 13 then [code '\\', code 'r']
  else if 0x20 ≤ c ∧ c < 0x7F then [c]
  else if 0x7F < c ∧ printable c then [c]
  else if c ≤ 0xFF then hexEscape 'x' 2 c
  else if c ≤ 0xFFFF then hexEscape 'u' 4 c
  else hexEscape 'U' 8 c

/-- The quotes around a string. -/
def quoteOf (content : Text) : ℕ :=
  if code '\'' ∈ content ∧ code '"' ∉ content then code '"' else code '\''

def quoted (printable : ℕ → Bool) (content : Text) : Text :=
  quoteOf content :: (content.flatMap (escape printable (quoteOf content))
    ++ [quoteOf content])

/-- `repr` of a byte string: no byte beyond ASCII is printable. -/
def reprBytes (raw : List UInt8) : Text :=
  code 'b' :: quoted (fun _ => false) (raw.map UInt8.toNat)

section Characters

variable {printable : ℕ → Bool} {holds : ℕ → Prop} {quote : ℕ}

/-- What is written for a character is ASCII, or is the character if that is printable. -/
theorem forall_mem_escape (ascii : ∀ c < 0x80, holds c) (shown : ∀ c, printable c = true → holds c)
    (plain : quote < 0x80) (c : ℕ) : ∀ d ∈ escape printable quote c, holds d := by
  have pair : ∀ letter < 0x80, ∀ d ∈ [code '\\', letter], holds d := by
    intro letter small d member
    simp only [List.mem_cons, List.not_mem_nil, or_false] at member
    rcases member with rfl | rfl
    · exact ascii _ (by decide)
    · exact ascii _ small
  have digits : ∀ {letter : Char} {width : ℕ}, code letter < 0x80 →
      ∀ d ∈ hexEscape letter width c, holds d :=
    fun small d member => ascii d (ascii_of_mem_hexEscape small member)
  unfold escape
  split_ifs with special tab newline feed inside wide byte short
  · rcases special with rfl | rfl
    · exact pair _ plain
    · exact pair _ (by decide)
  · exact pair _ (by decide)
  · exact pair _ (by decide)
  · exact pair _ (by decide)
  · intro d member
    rw [List.mem_singleton.mp member]
    exact ascii c (Nat.lt_trans inside.2 (by decide))
  · intro d member
    rw [List.mem_singleton.mp member]
    exact shown c wide.2
  · exact digits (by decide)
  · exact digits (by decide)
  · exact digits (by decide)

theorem quoteOf_ascii (content : Text) : quoteOf content < 0x80 := by
  unfold quoteOf
  split <;> decide

theorem forall_mem_quoted (ascii : ∀ c < 0x80, holds c)
    (shown : ∀ c, printable c = true → holds c) (content : Text) :
    ∀ c ∈ quoted printable content, holds c := by
  have quote := ascii _ (quoteOf_ascii content)
  intro c member
  simp only [quoted, List.mem_cons, List.mem_append, List.mem_flatMap, List.not_mem_nil,
    or_false] at member
  rcases member with rfl | ⟨d, -, inside⟩ | rfl
  · exact quote
  · exact forall_mem_escape ascii shown (quoteOf_ascii content) d c inside
  · exact quote

end Characters

theorem reprBytes_ascii (raw : List UInt8) : ∀ c ∈ reprBytes raw, c < 0x80 := by
  intro c member
  rcases List.mem_cons.mp member with rfl | member
  · decide
  · exact forall_mem_quoted (fun _ small => small) (fun _ => False.elim ∘ Bool.false_ne_true) _ c
      member

/-! ## The `repr` of values -/

section Repr

variable (printable : ℕ → Bool)

mutual
/-- `repr`. -/
def repr : Value → Text
  | .none => text "None"
  | .bool b => if b then text "True" else text "False"
  | .int n => (Numerals.print n).map code
  | .float x => x.repr
  | .str content => quoted printable content.points
  | .bytes raw => reprBytes raw
  | .tuple items =>
      -- the comma of a tuple of one item
      code '(' :: ((reprItems items).drop 2 ++ (if items.length = 1 then [code ',', code ')']
        else [code ')']))
  | .list items => code '[' :: ((reprItems items).drop 2 ++ [code ']'])
  | .dict items => code '{' :: ((reprPairs items).drop 2 ++ [code '}'])

/-- Each item after a comma and a blank, which the first drops. -/
def reprItems : List Value → Text
  | [] => []
  | item :: rest => code ',' :: code ' ' :: (repr item ++ reprItems rest)

def reprPairs : List (Value × Value) → Text
  | [] => []
  | (key, value) :: rest =>
      code ',' :: code ' ' :: (repr key ++ code ':' :: code ' ' :: (repr value ++ reprPairs rest))
end

end Repr

end Python
