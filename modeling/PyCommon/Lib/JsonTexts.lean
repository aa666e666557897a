import PyCommon.Lib.Json

/-!
# The writer's texts

What the writer writes is ASCII, if the `repr` of every float is (`write_ascii`). So it is its
own UTF-8 encoding, and its bytes are told to be UTF-8: they are loaded exactly as the text is
read (`load_of_ascii`).
-/

set_option autoImplicit false

namespace Json

open CodePoints (Text code text)

/-! ## Floats -/

section Floats

variable (ok : Text → Prop)

mutual
/-- Every float in a value has a `repr` with the property. -/
def Value.AllFloats : Value → Prop
  | .float repr => ok repr
  | .list items => AllFloatsItems items
  | .dict members => AllFloatsMembers members
  | _ => True

def AllFloatsItems : List Value → Prop
  | [] => True
  | item :: rest => item.AllFloats ∧ AllFloatsItems rest

def AllFloatsMembers : List (Text × Value) → Prop
  | [] => True
  | (_, value) :: rest => value.AllFloats ∧ AllFloatsMembers rest
end

end Floats

/-! ## What is written is ASCII -/

abbrev Ascii (content : Text) : Prop := ∀ c ∈ content, c < 0x80

theorem Ascii.append {first later : Text} (one : Ascii first) (other : Ascii later) :
    Ascii (first ++ later) := by
  intro c member
  rcases List.mem_append.mp member with early | late
  · exact one c early
  · exact other c late

theorem Ascii.cons {c : ℕ} {rest : Text} (first : c < 0x80) (later : Ascii rest) :
    Ascii (c :: rest) := List.forall_mem_cons.mpr ⟨first, later⟩

theorem ascii_nil : Ascii [] := fun _ member => absurd member List.not_mem_nil

theorem ascii_writeInt {limit : ℕ} {n : ℤ} {written : Text}
    (writes : writeInt limit n = some written) : Ascii written := by
  unfold writeInt at writes
  split at writes
  · obtain rfl := Option.some.inj writes
    intro c member
    obtain ⟨char, inside, rfl⟩ := List.mem_map.mp member
    exact ascii_of_mem_print inside
  · cases writes

theorem ascii_writeFloat {repr : Text} (ascii : Ascii repr) : Ascii (writeFloat repr) := by
  unfold writeFloat
  split
  · exact fun c member => by revert c; decide
  · split
    · exact fun c member => by revert c; decide
    · split
      · exact fun c member => by revert c; decide
      · exact ascii

section Writer

variable {limit : ℕ} {comma colon : Text}

mutual
/-- **What the writer writes is ASCII.** -/
theorem write_ascii (commas : Ascii comma) (colons : Ascii colon) :
    ∀ (value : Value) {room : ℕ} {written : Text}, value.AllFloats Ascii →
      write limit comma colon room value = .ok written → Ascii written
  | .null, _, _, _, writes => by
      cases writes
      decide
  | .bool b, _, _, _, writes => by
      cases writes
      cases b <;> decide
  | .int n, _, _, _, writes => by
      simp only [write] at writes
      split at writes
      · rename_i digits
        cases writes
        exact ascii_writeInt digits
      · cases writes
  | .float repr, _, _, floats, writes => by
      cases writes
      exact ascii_writeFloat floats
  | .str content, _, _, _, writes => by
      cases writes
      exact writeString_ascii content
  | .list items, 0, _, _, writes => by cases writes
  | .list items, room + 1, _, floats, writes => by
      cases inside : writeItems limit comma colon room items with
      | error e =>
          simp only [write, inside, bind, Except.bind] at writes
          cases writes
      | ok inner =>
          simp only [write, inside, bind, Except.bind, pure, Except.pure] at writes
          cases writes
          exact Ascii.cons (by decide)
            (Ascii.append (writeItems_ascii commas colons items floats inside) (by decide))
  | .dict members, 0, _, _, writes => by cases writes
  | .dict members, room + 1, _, floats, writes => by
      cases inside : writeMembers limit comma colon room members with
      | error e =>
          simp only [write, inside, bind, Except.bind] at writes
          cases writes
      | ok inner =>
          simp only [write, inside, bind, Except.bind, pure, Except.pure] at writes
          cases writes
          exact Ascii.cons (by decide)
            (Ascii.append (writeMembers_ascii commas colons members floats inside) (by decide))

theorem writeItems_ascii (commas : Ascii comma) (colons : Ascii colon) :
    ∀ (items : List Value) {room : ℕ} {written : Text},
    AllFloatsItems Ascii items → writeItems limit comma colon room items = .ok written →
      Ascii written
  | [], _, _, _, writes => by
      cases writes
      exact ascii_nil
  | item :: rest, room, _, floats, writes => by
      cases first : write limit comma colon room item with
      | error e =>
          simp only [writeItems, first, bind, Except.bind] at writes
          cases writes
      | ok one =>
          cases later : writeItems limit comma colon room rest with
          | error e =>
              simp only [writeItems, first, later, bind, Except.bind] at writes
              cases writes
          | ok others =>
              simp only [writeItems, first, later, bind, Except.bind, pure, Except.pure] at writes
              cases writes
              refine Ascii.append (Ascii.append (write_ascii commas colons item floats.1 first) ?_)
                (writeItems_ascii commas colons rest floats.2 later)
              split
              · exact ascii_nil
              · exact commas

theorem writeMembers_ascii (commas : Ascii comma) (colons : Ascii colon) :
    ∀ (members : List (Text × Value)) {room : ℕ} {written : Text},
    AllFloatsMembers Ascii members → writeMembers limit comma colon room members = .ok written →
      Ascii written
  | [], _, _, _, writes => by
      cases writes
      exact ascii_nil
  | (name, value) :: rest, room, _, floats, writes => by
      cases first : write limit comma colon room value with
      | error e =>
          simp only [writeMembers, first, bind, Except.bind] at writes
          cases writes
      | ok one =>
          cases later : writeMembers limit comma colon room rest with
          | error e =>
              simp only [writeMembers, first, later, bind, Except.bind] at writes
              cases writes
          | ok others =>
              simp only [writeMembers, first, later, bind, Except.bind, pure, Except.pure]
                at writes
              cases writes
              have named := Ascii.append (writeString_ascii name) colons
              have member := Ascii.append named (write_ascii commas colons value floats.1 first)
              refine Ascii.append (Ascii.append member ?_)
                (writeMembers_ascii commas colons rest floats.2 later)
              split
              · exact ascii_nil
              · exact commas
end

end Writer

/-! ## What is read of a text and of its bytes -/

section Reader

variable {float : Text → Text} {limit room : ℕ}

variable (float limit room) in
/-- Read the only value of a text. -/
def loads (input : Text) : Except Failure Value := do
  let (value, rest) ← readValue float limit room (skip input)
  if skip rest = [] then return value else .error .malformed

theorem load_eq (raw : List UInt8) : load float limit room raw = match decodeBytes raw with
    | none => .error .encoding
    | some input => loads float limit room input := rfl

/-- The encoding of bytes that begin with a brace and no zero is told to be UTF-8. -/
theorem decodeBytes_brace {b : UInt8} (rest : List UInt8) (nonzero : b ≠ 0) :
    decodeBytes (0x7B :: b :: rest) = CodePoints.decodeUtf8 false (0x7B :: b :: rest) := by
  rcases rest with _ | ⟨c, _ | ⟨d, rest⟩⟩
  · exact if_neg nonzero
  · rfl
  · exact if_neg nonzero

/-- **The bytes of an ASCII text that begins with a brace are loaded as the text is read**, if
its second character is not zero. -/
theorem load_of_ascii {b : ℕ} {rest : Text} (ascii : Ascii (code '{' :: b :: rest))
    (nonzero : b ≠ 0) :
    load float limit room ((code '{' :: b :: rest).map UInt8.ofNat)
      = loads float limit room (code '{' :: b :: rest) := by
  have small : b < 0x80 := ascii b (List.mem_cons_of_mem _ List.mem_cons_self)
  have byte : UInt8.ofNat b ≠ 0 := by
    intro zero
    have same := congrArg UInt8.toNat zero
    rw [UInt8.toNat_ofNat', Nat.mod_eq_of_lt (Nat.lt_trans small (by decide))] at same
    exact nonzero same
  have units : ∀ unit ∈ (code '{' :: b :: rest).map UInt8.ofNat, unit < 0x80 := by
    intro unit member
    obtain ⟨c, inside, rfl⟩ := List.mem_map.mp member
    have below := ascii c inside
    exact (UInt8.ofNat_lt_iff (Nat.lt_trans below (by decide))).mpr below
  have decoded := CodePoints.decodeUtf8_ascii false units
  rw [map_toNat_ofNat ascii] at decoded
  have told : decodeBytes ((code '{' :: b :: rest).map UInt8.ofNat)
      = some (code '{' :: b :: rest) :=
    (decodeBytes_brace (rest.map UInt8.ofNat) byte).trans decoded
  rw [load_eq, told]

/-- What is written for an object begins with its brace and a quote or the closing brace. -/
theorem write_dict_begins {comma colon : Text} {members : List (Text × Value)} {written : Text}
    (writes : write limit comma colon room (.dict members) = .ok written) :
    ∃ b rest, written = code '{' :: b :: rest ∧ b ≠ 0 := by
  cases room with
  | zero => cases writes
  | succ room =>
      cases inside : writeMembers limit comma colon room members with
      | error e =>
          simp only [write, inside, bind, Except.bind] at writes
          cases writes
      | ok inner =>
          simp only [write, inside, bind, Except.bind, pure, Except.pure] at writes
          cases writes
          cases members with
          | nil =>
              cases inside
              exact ⟨code '}', [], rfl, by decide⟩
          | cons member members =>
              obtain ⟨name, value⟩ := member
              simp only [writeMembers, bind, Except.bind] at inside
              split at inside
              · cases inside
              · split at inside
                · cases inside
                · cases inside
                  exact ⟨code '"', _, rfl, by decide⟩

end Reader

end Json
