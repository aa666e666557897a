import PyCommon.Lib.JsonScalars
import PyCommon.Lib.JsonTexts
import PyCommon.Lib.Outcomes
import PyCommon.Lib.PythonValues

/-!
# Python values through JSON

`json.dumps` of Python values, with the compact separators, and what `json.loads` makes of its
texts. The writer takes a tuple for a list and writes a key that is `None`, a `bool`, a number or
a string as a string; it refuses other keys and byte strings, an integer with too many digits and
deep nesting.

What is written is read as `reread` says (`loads_dumps`): with lists for tuples, texts for keys,
joined pairs in strings, the last of two values of one name, and no deeper than the reader goes.
-/

set_option autoImplicit false

namespace Python

open CodePoints (Text code text)
open Json (Ascii Delimited ReadsAs)
open Outcome (bind_eq_ok)

/-! ## Writing -/

/-- What `json.dumps` raises: a `TypeError`, a `ValueError` or a `RecursionError`. -/
inductive Refusal where
  | typeError
  | valueError
  | recursionError
  deriving DecidableEq

section Writer

variable (limit : ℕ)

def dumpsInt (n : ℤ) : Except Refusal Text :=
  match Json.writeInt limit n with
  | some written => .ok written
  | none => .error .valueError

/-- The text of a key, before it is quoted. -/
def keyText : Value → Except Refusal Text
  | .none => .ok (text "null")
  | .bool b => .ok (if b then text "true" else text "false")
  | .int n => dumpsInt limit n
  | .float x => .ok (Json.writeFloat x.repr)
  | .str content => .ok content.points
  | _ => .error .typeError

mutual
/-- `json.dumps` of a value in which containers are nested at most `room` deep. -/
def dumps (room : ℕ) : Value → Except Refusal Text
  | .none => .ok (text "null")
  | .bool b => .ok (if b then text "true" else text "false")
  | .int n => dumpsInt limit n
  | .float x => .ok (Json.writeFloat x.repr)
  | .str content => .ok (Json.writeString content.points)
  | .bytes _ => .error .typeError
  | .tuple items | .list items => match room with
      | 0 => .error .recursionError
      | room + 1 => do
          let written ← dumpsItems room items
          return code '[' :: (written ++ [code ']'])
  | .dict items => match room with
      | 0 => .error .recursionError
      | room + 1 => do
          let written ← dumpsPairs room items
          return code '{' :: (written ++ [code '}'])

def dumpsItems (room : ℕ) : List Value → Except Refusal Text
  | [] => .ok []
  | item :: rest => do
      let first ← dumps room item
      let later ← dumpsItems room rest
      return first ++ ((if rest.isEmpty then [] else [code ',']) ++ later)

def dumpsPairs (room : ℕ) : List (Value × Value) → Except Refusal Text
  | [] => .ok []
  | (key, value) :: rest => do
      let name ← keyText limit key
      let first ← dumps room value
      let later ← dumpsPairs room rest
      return Json.writeString name
        ++ (code ':' :: (first ++ ((if rest.isEmpty then [] else [code ',']) ++ later)))
end

/-! ## What is read -/

/-- The members of an object, set one after the other. -/
def setAll (found : List (Text × Json.Value)) (members : List (Text × Json.Value)) :
    List (Text × Json.Value) :=
  members.foldl (fun found member => Json.setMember member.1 member.2 found) found

mutual
/-- What `json.loads` makes of the text of a value, of which it reads containers nested at most
`room` deep. -/
def reread (room : ℕ) : Value → Except Json.Failure Json.Value
  | .none => .ok .null
  | .bool b => .ok (.bool b)
  | .int n => .ok (.int n)
  | .float x => .ok (.float x.repr)
  | .str content => .ok (.str (CodePoints.joinPairs content.points))
  | .bytes _ => .error .malformed
  | .tuple items | .list items => match room with
      | 0 => .error .depth
      | room + 1 => do
          let items ← rereadItems room items
          return .list items
  | .dict items => match room with
      | 0 => .error .depth
      | room + 1 => do
          let members ← rereadPairs room items
          return .dict (setAll [] members)

def rereadItems (room : ℕ) : List Value → Except Json.Failure (List Json.Value)
  | [] => .ok []
  | item :: rest => do
      let first ← reread room item
      let later ← rereadItems room rest
      return first :: later

def rereadPairs (room : ℕ) : List (Value × Value) → Except Json.Failure (List (Text × Json.Value))
  | [] => .ok []
  | (key, value) :: rest =>
      match keyText limit key with
      | .error _ => .error .malformed
      | .ok name => do
          let first ← reread room value
          let later ← rereadPairs room rest
          return (CodePoints.joinPairs name, first) :: later
end

end Writer

/-! ## Floats -/

theorem Digits.begins {content : Text} (digits : Digits content) :
    ∃ c rest, content = c :: rest ∧ Json.isDigit c = true := by
  obtain ⟨c, rest, rfl⟩ := List.exists_cons_of_ne_nil digits.1
  exact ⟨c, rest, rfl, digits.2 c List.mem_cons_self⟩

section Literals

variable {sign whole fraction exponent : Text}

/-- A literal is made of digits, signs, a point and the letter of the exponent. -/
theorem Literal.forall_mem (literal : Literal sign whole fraction exponent) {holds : ℕ → Prop}
    (digits : ∀ c, Json.isDigit c = true → holds c)
    (marks : ∀ c ∈ [code '-', code '+', code '.', code 'e'], holds c) :
    ∀ c ∈ sign ++ whole ++ fraction ++ exponent, holds c := by
  simp only [List.mem_cons, List.not_mem_nil, or_false, forall_eq_or_imp, forall_eq] at marks
  intro c member
  simp only [List.mem_append] at member
  rcases member with ((inSign | inWhole) | inFraction) | inExponent
  · rcases literal.signed with rfl | rfl
    · cases inSign
    · exact List.mem_singleton.mp inSign ▸ marks.1
  · exact digits c (literal.digits.2 c inWhole)
  · rcases literal.fractional with rfl | ⟨each, those, rfl⟩
    · cases inFraction
    · rcases List.mem_cons.mp inFraction with rfl | digit
      · exact marks.2.2.1
      · exact digits c (those.2 c digit)
  · rcases literal.exponential with rfl | ⟨sign, each, signed, those, rfl⟩
    · cases inExponent
    · rcases List.mem_cons.mp inExponent with rfl | later
      · exact marks.2.2.2
      · rcases List.mem_cons.mp later with rfl | digit
        · rcases signed with rfl | rfl
          · exact marks.2.1
          · exact marks.1
        · exact digits c (those.2 c digit)

theorem Literal.ascii (literal : Literal sign whole fraction exponent) :
    Ascii (sign ++ whole ++ fraction ++ exponent) := by
  exact literal.forall_mem (fun c => Json.isDigit_ascii) (by decide)

/-- Behind the digits of a literal stands neither a digit nor a second point. -/
theorem Literal.after_digits (literal : Literal sign whole fraction exponent) {rest : Text}
    (delimited : Delimited rest) :
    Json.NoDigit (exponent ++ rest) ∧ (exponent ++ rest).head? ≠ some (code '.') := by
  rcases literal.exponential with rfl | ⟨sign, digits, -, -, rfl⟩
  · exact ⟨delimited.noDigit, delimited.noPoint⟩
  · refine ⟨fun c first => ?_, fun first => absurd (Option.some.inj first) (by decide)⟩
    obtain rfl := Option.some.inj first
    rfl

variable {float : Text → Text} {limit : ℕ}

/-- **A finite literal is read as its float.** -/
theorem Literal.readsAs (literal : Literal sign whole fraction exponent) :
    ReadsAs float limit (sign ++ whole ++ fraction ++ exponent)
      (.float (float (sign ++ whole ++ fraction ++ exponent))) := by
  have parts : sign ++ whole ++ fraction ++ exponent
      = sign ++ (whole ++ (fraction ++ exponent)) := by
    rw [List.append_assoc, List.append_assoc]
  rw [parts]
  refine Json.readsAs_number literal.signed literal.digits.1 literal.digits.2 literal.leading
    (fun rest delimited => ?_) (fun rest delimited => ?_) ?_
  · obtain ⟨ends, point⟩ := literal.after_digits delimited
    rcases literal.fractional with rfl | ⟨digits, each, rfl⟩
    · exact ⟨ends, Json.fractionPart_absent point⟩
    · refine ⟨fun c first => ?_, Json.fractionPart_digits each.1 each.2 ends⟩
      obtain rfl := Option.some.inj first
      rfl
  · rcases literal.exponential with rfl | ⟨sign, digits, signed, each, rfl⟩
    · exact Json.exponentPart_absent delimited.noLetter
    · exact Json.exponentPart_digits signed each.1 each.2 delimited.noDigit
  · rw [Json.numberValue, if_neg, ← parts]
    rintro ⟨noFraction, noExponent⟩
    rcases literal.marked with marked | marked
    · exact marked noFraction
    · exact marked noExponent

end Literals

/-- No finite literal is the text of a float that is not finite. -/
theorem not_mem_infinities {repr : Text} (finite : IsFinite repr) : repr ∉ infinities := by
  obtain ⟨sign, whole, fraction, exponent, rfl, literal⟩ := finite
  obtain ⟨c, rest, rfl, digit⟩ := literal.digits.begins
  have noLetter : c ≠ code 'n' ∧ c ≠ code 'i' := by
    constructor <;> rintro rfl <;> cases digit
  intro member
  simp only [infinities, List.mem_cons, List.not_mem_nil, or_false] at member
  rcases literal.signed with rfl | rfl
  · rcases member with same | same | same
    · exact noLetter.1 (List.cons.inj same).1
    · exact noLetter.2 (List.cons.inj same).1
    · obtain rfl : c = code '-' := (List.cons.inj same).1
      cases digit
  · rcases member with same | same | same
    · exact absurd (List.cons.inj same).1 (by decide)
    · exact absurd (List.cons.inj same).1 (by decide)
    · exact noLetter.2 (List.cons.inj (List.cons.inj same).2).1

theorem Floating.ascii (x : Floating) : Ascii x.repr := by
  rcases x.shape with ⟨sign, whole, fraction, exponent, same, literal⟩ | infinite
  · rw [same]
    exact literal.ascii
  · have each : ∀ repr ∈ infinities, Ascii repr := by decide
    exact each x.repr infinite

section Floats

variable {float : Text → Text} {limit : ℕ}

/-- **A float is read back**, if the reader reads the `repr` of a finite float as that float. -/
theorem readsAs_float (float_repr : ∀ repr, IsFinite repr → float repr = repr) (x : Floating) :
    ReadsAs float limit (Json.writeFloat x.repr) (.float x.repr) := by
  rcases x.shape with finite | infinite
  · have plain : Json.writeFloat x.repr = x.repr := by
      have other := not_mem_infinities finite
      simp only [infinities, List.mem_cons, List.not_mem_nil, or_false, not_or] at other
      rw [Json.writeFloat, if_neg other.1, if_neg other.2.1, if_neg other.2.2]
    have known := float_repr x.repr finite
    obtain ⟨sign, whole, fraction, exponent, same, literal⟩ := finite
    have read : ReadsAs float limit _ _ := literal.readsAs
    rw [← same, known] at read
    rwa [plain]
  · simp only [infinities, List.mem_cons, List.not_mem_nil, or_false] at infinite
    rcases infinite with same | same | same
    all_goals rw [same]
    · exact Json.readsAs_word (List.mem_of_getElem? (i := 3) rfl)
    · exact Json.readsAs_word (List.mem_of_getElem? (i := 4) rfl)
    · exact Json.readsAs_word (List.mem_of_getElem? (i := 5) rfl)

end Floats

/-! ## The texts -/

/-- The text of a value: it is ASCII, and begins with no blank and no closing bracket. -/
structure IsText (written : Text) : Prop where
  ascii : Ascii written
  begins : ∃ c rest, written = c :: rest ∧ Json.isBlank c = false ∧ c ≠ code ']' ∧ c ≠ code '}'

/-- A scalar's text, once it is known to be read back. -/
theorem IsText.of_scalar {float : Text → Text} {limit : ℕ} {written : Text} {value : Json.Value}
    (ascii : Ascii written) (scalar : ReadsAs float limit written value) : IsText written := by
  obtain ⟨c, rest, rfl, starts⟩ := scalar.begins
  exact ⟨ascii, c, rest, rfl, starts.1, starts.2.2.2⟩

theorem IsText.skip {written : Text} (isText : IsText written) (rest : Text) :
    Json.skip (written ++ rest) = written ++ rest := by
  obtain ⟨c, more, rfl, blank, -⟩ := isText.begins
  rw [Json.skip, List.cons_append, List.dropWhile_cons_of_neg (by simp [blank])]

theorem IsText.head {written : Text} (isText : IsText written) (rest : Text) :
    (written ++ rest).head? ≠ some (code ']') ∧ (written ++ rest).head? ≠ some (code '}') := by
  obtain ⟨c, more, rfl, -, bracket, brace⟩ := isText.begins
  exact ⟨fun same => bracket (Option.some.inj same), fun same => brace (Option.some.inj same)⟩

theorem IsText.pos {written : Text} (isText : IsText written) : 0 < written.length := by
  obtain ⟨c, rest, rfl, -⟩ := isText.begins
  exact Nat.succ_pos _

theorem IsText.append {written more : Text} (isText : IsText written) (ascii : Ascii more) :
    IsText (written ++ more) := by
  obtain ⟨c, rest, rfl, starts⟩ := isText.begins
  exact ⟨Ascii.append isText.ascii ascii, c, rest ++ more, rfl, starts⟩

theorem IsText.bracketed {inner : Text} {opening closing : Char}
    (brackets : (opening, closing) ∈ [('[', ']'), ('\x7b', '\x7d')]) (ascii : Ascii inner) :
    IsText (code opening :: (inner ++ [code closing])) := by
  simp only [List.mem_cons, Prod.mk.injEq, List.not_mem_nil, or_false] at brackets
  rcases brackets with ⟨rfl, rfl⟩ | ⟨rfl, rfl⟩
  all_goals
    refine ⟨Ascii.cons (by decide) (Ascii.append ascii (by decide)), _, _, rfl, ?_⟩
    decide

section Texts

variable {limit room : ℕ}

theorem dumpsInt_eq_ok {n : ℤ} {written : Text} (writes : dumpsInt limit n = .ok written) :
    Json.writeInt limit n = some written := by
  unfold dumpsInt at writes
  split at writes
  · rename_i digits
    rw [digits, Except.ok.inj writes]
  · cases writes

/-- The text of a key is made of code points. -/
theorem keyText_valid {key : Value} {name : Text} (named : keyText limit key = .ok name) :
    ∀ c ∈ name, c < 0x110000 := by
  have small : ∀ {content : Text}, Ascii content → ∀ c ∈ content, c < 0x110000 :=
    fun ascii c member => Nat.lt_trans (ascii c member) (by decide)
  cases key with
  | none =>
      cases named
      exact small (by decide)
  | bool b =>
      cases named
      cases b
      · exact small (by decide)
      · exact small (by decide)
  | int n => exact small (Json.ascii_writeInt (dumpsInt_eq_ok named))
  | float x =>
      cases named
      exact small (Json.ascii_writeFloat x.ascii)
  | str content =>
      cases named
      exact content.valid
  | _ => cases named

theorem isText_writeString (content : Text) : IsText (Json.writeString content) :=
  ⟨Json.writeString_ascii content, code '"', _, rfl, by decide⟩

mutual
/-- What is written is a text. -/
theorem dumps_isText : ∀ (value : Value) {room : ℕ} {written : Text},
    dumps limit room value = .ok written → IsText written
  | .none, _, _, writes => by
      cases writes
      exact ⟨by decide, code 'n', _, rfl, by decide⟩
  | .bool b, _, _, writes => by
      cases writes
      cases b
      · exact ⟨by decide, code 'f', _, rfl, by decide⟩
      · exact ⟨by decide, code 't', _, rfl, by decide⟩
  | .int n, _, _, writes => by
      have digits := dumpsInt_eq_ok writes
      have read : ReadsAs id limit _ _ := Json.readsAs_int digits
      exact .of_scalar (Json.ascii_writeInt digits) read
  | .float x, _, _, writes => by
      cases writes
      have read : ReadsAs id limit _ _ := readsAs_float (fun _ _ => rfl) x
      exact .of_scalar (Json.ascii_writeFloat x.ascii) read
  | .str content, _, _, writes => by
      cases writes
      exact isText_writeString content.points
  | .bytes raw, _, _, writes => by cases writes
  | .tuple items, 0, _, writes | .list items, 0, _, writes => by cases writes
  | .tuple items, room + 1, _, writes | .list items, room + 1, _, writes => by
      obtain ⟨inner, inside, result⟩ := bind_eq_ok.mp writes
      obtain rfl := Except.ok.inj result
      exact IsText.bracketed (by decide) (dumpsItems_isText items inside).1
  | .dict items, 0, _, writes => by cases writes
  | .dict items, room + 1, _, writes => by
      obtain ⟨inner, inside, result⟩ := bind_eq_ok.mp writes
      obtain rfl := Except.ok.inj result
      exact IsText.bracketed (by decide) (dumpsPairs_isText items inside).1

theorem dumpsItems_isText : ∀ (items : List Value) {room : ℕ} {written : Text},
    dumpsItems limit room items = .ok written →
      Ascii written ∧ items.length ≤ written.length ∧ (items ≠ [] → IsText written)
  | [], _, _, writes => by
      cases writes
      exact ⟨Json.ascii_nil, Nat.le_refl 0, fun nonempty => absurd rfl nonempty⟩
  | item :: rest, room, _, writes => by
      obtain ⟨first, one, writes⟩ := bind_eq_ok.mp writes
      obtain ⟨later, others, result⟩ := bind_eq_ok.mp writes
      obtain rfl := Except.ok.inj result
      have isText := dumps_isText item one
      obtain ⟨ascii, count, -⟩ := dumpsItems_isText rest others
      have more : Ascii ((if rest.isEmpty then [] else [code ',']) ++ later) := by
        refine Ascii.append ?_ ascii
        split <;> decide
      refine ⟨(isText.append more).ascii, ?_, fun _ => isText.append more⟩
      have positive := isText.pos
      simp only [List.length_append, List.length_cons]
      omega

theorem dumpsPairs_isText : ∀ (items : List (Value × Value)) {room : ℕ} {written : Text},
    dumpsPairs limit room items = .ok written →
      Ascii written ∧ items.length ≤ written.length ∧ (items ≠ [] → IsText written)
  | [], _, _, writes => by
      cases writes
      exact ⟨Json.ascii_nil, Nat.le_refl 0, fun nonempty => absurd rfl nonempty⟩
  | (key, value) :: rest, room, _, writes => by
      obtain ⟨name, named, writes⟩ := bind_eq_ok.mp writes
      obtain ⟨first, one, writes⟩ := bind_eq_ok.mp writes
      obtain ⟨later, others, result⟩ := bind_eq_ok.mp writes
      obtain rfl := Except.ok.inj result
      obtain ⟨ascii, count, -⟩ := dumpsPairs_isText rest others
      have more : Ascii
          (code ':' :: (first ++ ((if rest.isEmpty then [] else [code ',']) ++ later))) := by
        refine Ascii.cons (by decide) (Ascii.append (dumps_isText value one).ascii ?_)
        refine Ascii.append ?_ ascii
        split <;> decide
      have quotes := (isText_writeString name).append more
      refine ⟨quotes.ascii, ?_, fun _ => quotes⟩
      simp only [List.length_append, List.length_cons]
      omega
end

end Texts

/-! ## What is written is read back -/

section Reader

variable {float : Text → Text} {limit : ℕ}

/-- An outcome together with the rest of the text. -/
def followedBy {α : Type} (rest : Text) (outcome : Except Json.Failure α) :
    Except Json.Failure (α × Text) := outcome.map fun back => (back, rest)

theorem skip_code {c : ℕ} (visible : Json.isBlank c = false) (rest : Text) :
    Json.skip (c :: rest) = c :: rest := by
  rw [Json.skip, List.dropWhile_cons_of_neg (by simp [visible])]

theorem delimited_cons {c : ℕ} (delimiter : c = code ',' ∨ c = code ']' ∨ c = code '}')
    (rest : Text) : Delimited (c :: rest) := by
  intro d first
  obtain rfl := Option.some.inj first
  exact delimiter

/-- A list after its bracket, once its items are read. -/
theorem readList_dumps {items : List Value} {room space : ℕ} {inner rest : Text}
    (inside : dumpsItems limit room items = .ok inner)
    (each : items ≠ [] → ∀ {fuel : ℕ}, items.length ≤ fuel →
      Json.readItems (Json.readValue float limit space) fuel (inner ++ code ']' :: rest) =
        followedBy rest (rereadItems limit space items)) :
    Json.readList (Json.readValue float limit space) (inner ++ code ']' :: rest) =
      followedBy rest (do
        let items ← rereadItems limit space items
        return .list items) := by
  cases items with
  | nil =>
      cases inside
      rfl
  | cons item items =>
      obtain ⟨-, count, isText⟩ := dumpsItems_isText _ inside
      have nonempty := List.cons_ne_nil item items
      have enough : (item :: items).length ≤ (inner ++ code ']' :: rest).length := by
        rw [List.length_append]
        omega
      rw [Json.readList, (isText nonempty).skip, if_neg ((isText nonempty).head _).1,
        each nonempty enough]
      cases rereadItems limit space (item :: items) <;> rfl

/-- An object after its brace, once its members are read. -/
theorem readDict_dumps {items : List (Value × Value)} {room space : ℕ} {inner rest : Text}
    (inside : dumpsPairs limit room items = .ok inner)
    (each : items ≠ [] → ∀ {fuel : ℕ}, items.length ≤ fuel → ∀ found,
      Json.readMembers (Json.readValue float limit space) fuel found (inner ++ code '}' :: rest) =
        followedBy rest ((rereadPairs limit space items).map (setAll found))) :
    Json.readDict (Json.readValue float limit space) (inner ++ code '}' :: rest) =
      followedBy rest (do
        let members ← rereadPairs limit space items
        return .dict (setAll [] members)) := by
  cases items with
  | nil =>
      cases inside
      rfl
  | cons item items =>
      obtain ⟨-, count, isText⟩ := dumpsPairs_isText _ inside
      have nonempty := List.cons_ne_nil item items
      have enough : (item :: items).length ≤ (inner ++ code '}' :: rest).length := by
        rw [List.length_append]
        omega
      rw [Json.readDict, (isText nonempty).skip, if_neg ((isText nonempty).head _).2,
        each nonempty enough []]
      cases rereadPairs limit space (item :: items) <;> rfl

/-- One item of a list, and the items after it. -/
theorem readItems_cons {item : Value} {items : List Value} {space fuel : ℕ}
    {first later rest : Text} (isText : items ≠ [] → IsText later) (last : items = [] → later = [])
    (one : ∀ rest, Delimited rest → Json.readValue float limit space (first ++ rest) =
      followedBy rest (reread limit space item))
    (others : items ≠ [] → Json.readItems (Json.readValue float limit space) fuel
      (later ++ code ']' :: rest) = followedBy rest (rereadItems limit space items)) :
    Json.readItems (Json.readValue float limit space) (fuel + 1)
        (first ++ ((if items.isEmpty then [] else [code ',']) ++ later) ++ code ']' :: rest) =
      followedBy rest (rereadItems limit space (item :: items)) := by
  have bracket : Json.isBlank (code ']') = false := rfl
  have comma : Json.isBlank (code ',') = false := rfl
  cases items with
  | nil =>
      obtain rfl := last rfl
      simp only [List.isEmpty_nil, if_true, List.append_nil, Json.readItems,
        one _ (delimited_cons (Or.inr (Or.inl rfl)) rest), rereadItems]
      cases reread limit space item with
      | error e => rfl
      | ok back =>
          simp only [followedBy, Except.map, bind, Except.bind, skip_code bracket, if_true]
          rfl
  | cons next items =>
      have nonempty := List.cons_ne_nil next items
      simp only [List.isEmpty_cons, Bool.false_eq_true, if_false, List.append_assoc,
        List.nil_append, List.cons_append, Json.readItems]
      rw [one _ (delimited_cons (Or.inl rfl) _), rereadItems]
      cases reread limit space item with
      | error e => rfl
      | ok back =>
          have other : code ',' ≠ code ']' := by decide
          simp only [followedBy, Except.map, bind, Except.bind, skip_code comma, if_neg other,
            if_true, (isText nonempty).skip, others nonempty]
          cases rereadItems limit space (next :: items) <;> rfl

/-- One member of an object, and the members after it. -/
theorem readMembers_cons {key value : Value} {items : List (Value × Value)} {space fuel : ℕ}
    {name first later rest : Text} {found : List (Text × Json.Value)}
    (named : keyText limit key = .ok name) (isText : items ≠ [] → IsText later)
    (last : items = [] → later = []) (text_ : IsText first)
    (one : ∀ rest, Delimited rest → Json.readValue float limit space (first ++ rest) =
      followedBy rest (reread limit space value))
    (others : items ≠ [] → ∀ found, Json.readMembers (Json.readValue float limit space) fuel found
      (later ++ code '}' :: rest) =
        followedBy rest ((rereadPairs limit space items).map (setAll found))) :
    Json.readMembers (Json.readValue float limit space) (fuel + 1) found
        (Json.writeString name ++ (code ':' :: (first ++
          ((if items.isEmpty then [] else [code ',']) ++ later))) ++ code '}' :: rest) =
      followedBy rest ((rereadPairs limit space ((key, value) :: items)).map (setAll found)) := by
  have colon : Json.isBlank (code ':') = false := rfl
  have brace : Json.isBlank (code '}') = false := rfl
  have comma : Json.isBlank (code ',') = false := rfl
  have string := Json.readString_flatMap (keyText_valid named)
  simp only [List.append_assoc, List.cons_append, Json.writeString_append, Json.readMembers,
    if_true, string, rereadPairs, named, skip_code colon, text_.skip, bind, Except.bind]
  cases items with
  | nil =>
      obtain rfl := last rfl
      simp only [List.isEmpty_nil, if_true, List.nil_append,
        one _ (delimited_cons (Or.inr (Or.inr rfl)) rest)]
      cases reread limit space value with
      | error e => rfl
      | ok back =>
          simp only [followedBy, Except.map, skip_code brace, if_true]
          rfl
  | cons next items =>
      have nonempty := List.cons_ne_nil next items
      simp only [List.isEmpty_cons, Bool.false_eq_true, if_false, List.nil_append,
        List.cons_append]
      rw [one _ (delimited_cons (Or.inl rfl) _)]
      cases reread limit space value with
      | error e => rfl
      | ok back =>
          have other : code ',' ≠ code '}' := by decide
          simp only [followedBy, Except.map, skip_code comma, if_neg other,
            if_true, (isText nonempty).skip, others nonempty]
          cases rereadPairs limit space (next :: items) <;> rfl

mutual
/-- **The text of a value is read as `reread` says**, wherever a delimiter follows. -/
theorem readValue_dumps (float_repr : ∀ repr, IsFinite repr → float repr = repr) :
    ∀ (value : Value) {room space : ℕ} {written : Text}, dumps limit room value = .ok written →
      ∀ rest, Delimited rest → Json.readValue float limit space (written ++ rest) =
        followedBy rest (reread limit space value)
  | .none, _, space, _, writes, rest, delimited => by
      cases writes
      exact (Json.readsAs_word (List.mem_of_getElem? (i := 0) rfl)).readValue space delimited
  | .bool b, _, space, _, writes, rest, delimited => by
      cases writes
      cases b
      · exact (Json.readsAs_word (List.mem_of_getElem? (i := 2) rfl)).readValue space delimited
      · exact (Json.readsAs_word (List.mem_of_getElem? (i := 1) rfl)).readValue space delimited
  | .int n, _, space, _, writes, rest, delimited =>
      (Json.readsAs_int (dumpsInt_eq_ok writes)).readValue space delimited
  | .float x, _, space, _, writes, rest, delimited => by
      cases writes
      exact (readsAs_float float_repr x).readValue space delimited
  | .str content, _, space, _, writes, rest, delimited => by
      cases writes
      exact (Json.readsAs_string content.valid).readValue space delimited
  | .bytes raw, _, _, _, writes, _, _ => by cases writes
  | .tuple items, 0, _, _, writes, _, _ | .list items, 0, _, _, writes, _, _ => by cases writes
  | .tuple items, room + 1, 0, _, writes, rest, delimited
  | .list items, room + 1, 0, _, writes, rest, delimited => by
      obtain ⟨inner, inside, result⟩ := bind_eq_ok.mp writes
      obtain rfl := Except.ok.inj result
      rfl
  | .tuple items, room + 1, space + 1, _, writes, rest, delimited
  | .list items, room + 1, space + 1, _, writes, rest, delimited => by
      obtain ⟨inner, inside, result⟩ := bind_eq_ok.mp writes
      obtain rfl := Except.ok.inj result
      have whole : code '[' :: (inner ++ [code ']']) ++ rest
          = code '[' :: (inner ++ code ']' :: rest) := by simp
      rw [whole]
      exact readList_dumps inside fun nonempty _ enough =>
        readItems_dumps float_repr items inside nonempty enough rest
  | .dict items, 0, _, _, writes, _, _ => by cases writes
  | .dict items, room + 1, 0, _, writes, rest, delimited => by
      obtain ⟨inner, inside, result⟩ := bind_eq_ok.mp writes
      obtain rfl := Except.ok.inj result
      rfl
  | .dict items, room + 1, space + 1, _, writes, rest, delimited => by
      obtain ⟨inner, inside, result⟩ := bind_eq_ok.mp writes
      obtain rfl := Except.ok.inj result
      have whole : code '\x7b' :: (inner ++ [code '\x7d']) ++ rest
          = code '\x7b' :: (inner ++ code '\x7d' :: rest) := by simp
      rw [whole]
      exact readDict_dumps inside fun nonempty _ enough found =>
        readMembers_dumps float_repr items inside nonempty enough found rest

theorem readItems_dumps (float_repr : ∀ repr, IsFinite repr → float repr = repr) :
    ∀ (items : List Value) {room space : ℕ} {written : Text},
      dumpsItems limit room items = .ok written → items ≠ [] → ∀ {fuel : ℕ}, items.length ≤ fuel →
        ∀ rest, Json.readItems (Json.readValue float limit space) fuel
            (written ++ code ']' :: rest) =
          followedBy rest (rereadItems limit space items)
  | [], _, _, _, _, nonempty, _, _, _ => absurd rfl nonempty
  | item :: items, room, space, _, writes, _, 0, enough, _ => absurd enough (Nat.not_succ_le_zero _)
  | item :: items, room, space, _, writes, _, fuel + 1, enough, rest => by
      obtain ⟨first, one, writes⟩ := bind_eq_ok.mp writes
      obtain ⟨later, others, result⟩ := bind_eq_ok.mp writes
      obtain rfl := Except.ok.inj result
      refine readItems_cons (dumpsItems_isText items others).2.2 ?_
        (fun rest => readValue_dumps float_repr item one rest) fun nonempty =>
          readItems_dumps float_repr items others nonempty (Nat.le_of_succ_le_succ enough) rest
      rintro rfl
      exact (Except.ok.inj others).symm

theorem readMembers_dumps (float_repr : ∀ repr, IsFinite repr → float repr = repr) :
    ∀ (items : List (Value × Value)) {room space : ℕ} {written : Text},
      dumpsPairs limit room items = .ok written → items ≠ [] → ∀ {fuel : ℕ}, items.length ≤ fuel →
        ∀ found rest, Json.readMembers (Json.readValue float limit space) fuel found
            (written ++ code '}' :: rest) =
          followedBy rest ((rereadPairs limit space items).map (setAll found))
  | [], _, _, _, _, nonempty, _, _, _, _ => absurd rfl nonempty
  | item :: items, room, space, _, writes, _, 0, enough, _, _ =>
      absurd enough (Nat.not_succ_le_zero _)
  | (key, value) :: items, room, space, _, writes, _, fuel + 1, enough, found, rest => by
      obtain ⟨name, named, writes⟩ := bind_eq_ok.mp writes
      obtain ⟨first, one, writes⟩ := bind_eq_ok.mp writes
      obtain ⟨later, others, result⟩ := bind_eq_ok.mp writes
      obtain rfl := Except.ok.inj result
      refine readMembers_cons named (dumpsPairs_isText items others).2.2 ?_
        (dumps_isText value one) (fun rest => readValue_dumps float_repr value one rest)
        fun nonempty found => readMembers_dumps float_repr items others nonempty
          (Nat.le_of_succ_le_succ enough) found rest
      rintro rfl
      exact (Except.ok.inj others).symm
end

/-- **What `json.loads` makes of what `json.dumps` writes.** -/
theorem loads_dumps (float_repr : ∀ repr, IsFinite repr → float repr = repr) {value : Value}
    {room space : ℕ} {written : Text} (writes : dumps limit room value = .ok written) :
    Json.loads float limit space written = reread limit space value := by
  have skipped := (dumps_isText value writes).skip []
  have read : Json.readValue float limit space (written ++ []) = _ :=
    readValue_dumps float_repr value writes [] Json.delimited_nil
  rw [List.append_nil] at skipped read
  rw [Json.loads, skipped, read]
  cases reread limit space value <;> rfl

end Reader

end Python
