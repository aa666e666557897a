import Mathlib.Data.Finset.Card
import PyCommon.Cache.CacheAside
import PyCommon.Lib.Glob
import PyCommon.Lib.Separated

/-!
# Clearing a namespace

`clear` asks Redis for the keys that match `build_key("*")` and deletes each. The namespace
goes into the pattern as it is, so what `clear` deletes depends on how Redis reads it: it is
exactly the namespace's own entries when the namespace holds no glob character
(`clears_exactly_iff`), and the entries of every namespace when it is a star
(`star_clears_others`).
-/

set_option autoImplicit false

namespace PyCommon.CacheAside

open Glob

/-! ## The loop -/

/-- The loop of `clear` over what the iterator gives, which is a key, or what Redis raised at
the `SCAN` or at the `DELETE`. The keys stored are what the deletions act on. -/
def clearLoop : List (Except Exc Bytes) → Finset Bytes → ℕ → Except Exc ℕ × Finset Bytes
  | [], keys, removed => (.ok removed, keys)
  | .error e :: _, keys, removed => (swallowRedisError removed (.error e), keys)
  | .ok found :: rest, keys, removed =>
      clearLoop rest (keys.erase found) (removed + if found ∈ keys then 1 else 0)

/-- `clear`, over the keys stored and the iterator that a pattern gives. -/
def Cache.clear {Value : Type} (cache : Cache Value) (scanIter : Bytes → List (Except Exc Bytes))
    (keys : Finset Bytes) : Except Exc ℕ × Finset Bytes :=
  clearLoop (scanIter (encode (cache.buildKey "*"))) keys 0

theorem clearLoop_left (items : List (Except Exc Bytes)) (keys : Finset Bytes) (removed : ℕ) :
    (clearLoop items keys removed).2 ⊆ keys := by
  induction items generalizing keys removed with
  | nil => exact Finset.Subset.refl keys
  | cons item items ih =>
      cases item with
      | error e => exact Finset.Subset.refl keys
      | ok found => exact (ih _ _).trans (Finset.erase_subset found keys)

/-- **What `clear` returns is the number of entries it deleted**, also when Redis fails on
the way. -/
theorem clearLoop_counts {items : List (Except Exc Bytes)} {keys : Finset Bytes}
    {removed counted : ℕ} (returned : (clearLoop items keys removed).1 = .ok counted) :
    counted = removed + (keys \ (clearLoop items keys removed).2).card := by
  suffices kept : counted + (clearLoop items keys removed).2.card = removed + keys.card by
    rw [Finset.card_sdiff_of_subset (clearLoop_left items keys removed)]
    have fewer := Finset.card_le_card (clearLoop_left items keys removed)
    omega
  induction items generalizing keys removed with
  | nil => rw [Except.ok.inj returned]; rfl
  | cons item items ih =>
      cases item with
      | error e =>
          simp only [clearLoop, swallowRedisError] at returned
          split at returned
          · rw [Except.ok.inj returned]; rfl
          · cases returned
      | ok found =>
          have rest := ih returned
          simp only [clearLoop, rest]
          by_cases member : found ∈ keys
          · have one := Finset.card_erase_add_one member
            rw [if_pos member]
            omega
          · rw [if_neg member, Finset.erase_eq_of_notMem member]
            omega

/-- Without a failure the keys found are gone. -/
theorem clearLoop_ok (found : List Bytes) (keys : Finset Bytes) (removed : ℕ) :
    ∃ counted, clearLoop (found.map .ok) keys removed = (.ok counted, keys \ found.toFinset) := by
  induction found generalizing keys removed with
  | nil => exact ⟨removed, by simp [clearLoop]⟩
  | cons key found ih =>
      obtain ⟨counted, cleared⟩ := ih (keys.erase key) (removed + if key ∈ keys then 1 else 0)
      refine ⟨counted, ?_⟩
      rw [List.map_cons, clearLoop, cleared]
      congr 1
      ext other
      simp only [Finset.mem_sdiff, Finset.mem_erase, List.mem_toFinset, List.mem_cons]
      tauto

/-! ## Entries and scans -/

/-- The key is one that a cache of the namespace writes. -/
def EntryOf (namespace_ : String) (key : Bytes) : Prop :=
  ∃ (Value : Type) (cache : Cache Value) (name : String),
    cache.namespace_ = namespace_ ∧ key = encode (cache.buildKey name)

/-- Every key was written by a cache whose namespace holds no closing brace. -/
def Written (keys : Finset Bytes) : Prop :=
  ∀ key ∈ keys, ∃ namespace_ : String, '\x7d' ∉ namespace_.toList ∧ EntryOf namespace_ key

/-- What a healthy Redis answers: the iterator gives the stored keys that match the pattern,
each at least once. -/
def Healthy (rank : UInt8 → ℤ) (keys : Finset Bytes)
    (scanIter : Bytes → List (Except Exc Bytes)) : Prop :=
  ∀ pattern, ∃ found : List Bytes, scanIter pattern = found.map .ok ∧
    ∀ key, key ∈ found ↔ key ∈ keys ∧ accepts (tokens rank pattern) key = true

/-- On a healthy Redis `clear` deletes every entry of its own namespace and no other, and
returns how many it deleted. -/
def ClearsExactly {Value : Type} (rank : UInt8 → ℤ) (cache : Cache Value) : Prop :=
  ∀ keys, Written keys → ∀ scanIter, Healthy rank keys scanIter →
    (∀ key, key ∈ (cache.clear scanIter keys).2 ↔ key ∈ keys ∧ ¬ EntryOf cache.namespace_ key)
      ∧ (cache.clear scanIter keys).1 =
        .ok (keys \ (cache.clear scanIter keys).2).card

/-- On a healthy Redis the keys that match are gone, and counted. -/
theorem clear_of_healthy {Value : Type} (cache : Cache Value) {rank : UInt8 → ℤ}
    {keys : Finset Bytes} {scanIter : Bytes → List (Except Exc Bytes)}
    (healthy : Healthy rank keys scanIter) :
    (∀ key, key ∈ (cache.clear scanIter keys).2 ↔
        key ∈ keys ∧ accepts (tokens rank (encode (cache.buildKey "*"))) key ≠ true)
      ∧ (cache.clear scanIter keys).1 =
        .ok (keys \ (cache.clear scanIter keys).2).card := by
  obtain ⟨found, scanned, complete⟩ := healthy (encode (cache.buildKey "*"))
  obtain ⟨counted, cleared⟩ := clearLoop_ok found keys 0
  have whole : cache.clear scanIter keys = (.ok counted, keys \ found.toFinset) := by
    rw [Cache.clear, scanned, cleared]
  constructor
  · intro key
    rw [whole, Finset.mem_sdiff, List.mem_toFinset, complete]
    exact ⟨fun both => ⟨both.1, fun matched => both.2 ⟨both.1, matched⟩⟩,
      fun both => ⟨both.1, fun matched => both.2 matched.2⟩⟩
  · have returned : (cache.clear scanIter keys).1 = .ok counted := by rw [whole]
    have counts := clearLoop_counts returned
    rw [Nat.zero_add] at counts
    rw [returned, counts]
    rfl

/-- What the iterator gives when this key is stored alone. -/
def scanAlone (rank : UInt8 → ℤ) (key pattern : Bytes) : List (Except Exc Bytes) :=
  (if accepts (tokens rank pattern) key then [key] else []).map .ok

theorem healthy_singleton (rank : UInt8 → ℤ) (key : Bytes) :
    Healthy rank {key} (scanAlone rank key) := by
  intro pattern
  refine ⟨_, rfl, fun other => ?_⟩
  rw [Finset.mem_singleton]
  constructor
  · intro member
    split at member
    · rename_i matched
      obtain rfl := List.mem_singleton.mp member
      exact ⟨rfl, matched⟩
    · exact (List.not_mem_nil member).elim
  · rintro ⟨rfl, matched⟩
    rw [if_pos matched]
    exact List.mem_singleton_self other

/-- What is to be decided is which of the keys that caches write match the pattern. -/
theorem clearsExactly_iff_accepts {Value : Type} {rank : UInt8 → ℤ} {cache : Cache Value} :
    ClearsExactly rank cache ↔
      ∀ namespace_ : String, '\x7d' ∉ namespace_.toList → ∀ key, EntryOf namespace_ key →
        (accepts (tokens rank (encode (cache.buildKey "*"))) key = true ↔
          EntryOf cache.namespace_ key) := by
  constructor
  · intro exact_ namespace_ braceless key entry
    -- The store holds this key alone.
    have written : Written {key} := by
      intro other member
      rw [Finset.mem_singleton.mp member]
      exact ⟨namespace_, braceless, entry⟩
    have healthy := healthy_singleton rank key
    have kept := (exact_ {key} written _ healthy).1 key
    rw [(clear_of_healthy cache healthy).1 key] at kept
    have alone : key ∈ ({key} : Finset Bytes) := Finset.mem_singleton_self key
    simp only [alone, true_and] at kept
    exact not_iff_not.mp kept
  · intro decided keys written scanIter healthy
    refine ⟨fun key => ?_, (clear_of_healthy cache healthy).2⟩
    rw [(clear_of_healthy cache healthy).1 key]
    refine and_congr_right fun member => not_congr ?_
    obtain ⟨namespace_, braceless, entry⟩ := written key member
    exact decided namespace_ braceless key entry

/-! ## Bytes of a key -/

theorem encode_append (first second : String) :
    encode (first ++ second) = encode first ++ encode second := by
  rw [encode_eq_flatMap, encode_eq_flatMap, encode_eq_flatMap, String.toList_append,
    List.flatMap_append]

/-- An ASCII character stands in a text where its byte stands in the encoded text. -/
theorem mem_encode {c : Char} (ascii : c.val.toNat ≤ 127) {text : String} :
    UInt8.ofNat c.val.toNat ∈ encode text ↔ c ∈ text.toList := by
  rw [encode_eq_flatMap, List.mem_flatMap]
  constructor
  · rintro ⟨other, member, byte⟩
    by_cases small : other.val.toNat ≤ 127
    · rw [utf8EncodeChar_of_ascii small, List.mem_singleton] at byte
      have values := congrArg UInt8.toNat byte
      rw [UInt8.toNat_ofNat', UInt8.toNat_ofNat', Nat.mod_eq_of_lt (by omega),
        Nat.mod_eq_of_lt (by omega)] at values
      obtain rfl : c = other := Char.ext (UInt32.toNat_inj.mp values)
      exact member
    · have large := large_of_mem_utf8EncodeChar (Nat.lt_of_not_le small) byte
      rw [UInt8.toNat_ofNat', Nat.mod_eq_of_lt (by omega)] at large
      omega
  · intro member
    exact ⟨c, member, by rw [utf8EncodeChar_of_ascii ascii]; exact List.mem_singleton_self _⟩

/-- The bytes of a key: the prefix, the namespace, the closing brace and the colon, the name. -/
theorem encode_buildKey {Value : Type} (cache : Cache Value) (name : String) :
    encode (cache.buildKey name) =
      [99, 97, 99, 104, 101, 58, 123] ++ (encode cache.namespace_ ++ 125 :: 58 :: encode name) := by
  have before : encode "cache:\x7b" = [99, 97, 99, 104, 101, 58, 123] := by decide
  have between : encode "\x7d:" = [125, 58] := by decide
  rw [Cache.buildKey, encode_append, encode_append, encode_append, before, between]
  simp

/-- The part of a key after the prefix. -/
def tailOf (namespace_ name : String) : Bytes := encode namespace_ ++ 125 :: 58 :: encode name

theorem entryOf_iff {namespace_ : String} {key : Bytes} :
    EntryOf namespace_ key ↔
      ∃ name, key = [99, 97, 99, 104, 101, 58, 123] ++ tailOf namespace_ name := by
  constructor
  · rintro ⟨Value, cache, name, rfl, rfl⟩
    exact ⟨name, encode_buildKey cache name⟩
  · rintro ⟨name, rfl⟩
    let silent : Serializer Unit := ⟨fun _ => .ok "", fun _ => .ok ()⟩
    let cache : Cache Unit :=
      { namespace_ := namespace_, ttlSeconds := none, serializer := silent }
    exact ⟨Unit, cache, name, rfl, (encode_buildKey cache name).symm⟩

theorem count_brace {namespace_ : String} (braceless : '\x7d' ∉ namespace_.toList) :
    (encode namespace_).count 125 = 0 :=
  List.count_eq_zero.mpr fun member => braceless ((mem_encode (c := '\x7d') (by decide)).mp member)

/-- A namespace without a closing brace is read off its keys. -/
theorem tailOf_namespace {first second : String} (braceless : '\x7d' ∉ first.toList)
    (braceless' : '\x7d' ∉ second.toList) {name : String} {rest : Bytes}
    (same : tailOf first name = encode second ++ 125 :: rest) : first = second := by
  have counts : (encode first).count 125 = (encode second).count 125 :=
    (count_brace braceless).trans (count_brace braceless').symm
  exact encode_injective (Separated.append_cons_inj_of_count same counts).1

/-- Whether the pattern of a namespace matches the rest of a key. -/
def Reaches (rank : UInt8 → ℤ) (namespace_ : String) (tail : Bytes) : Prop :=
  accepts (tokens rank (encode namespace_ ++ [125, 58, 42])) tail = true

theorem accepts_pattern {Value : Type} (rank : UInt8 → ℤ) (cache : Cache Value) (tail : Bytes) :
    accepts (tokens rank (encode (cache.buildKey "*")))
        ([99, 97, 99, 104, 101, 58, 123] ++ tail) = true ↔
      Reaches rank cache.namespace_ tail := by
  have star : encode "*" = [42] := by decide
  have plain : ∀ b ∈ ([99, 97, 99, 104, 101, 58, 123] : Bytes), b ∉ wild := by simp [wild]
  rw [encode_buildKey, star, tokens_plain_append rank plain, accepts_literals]
  constructor
  · rintro ⟨tail', same, accepted⟩
    rwa [List.append_cancel_left same]
  · intro accepted
    exact ⟨tail, rfl, accepted⟩

/-- `clear` is exact when the pattern of the namespace reaches its own keys alone. -/
theorem clearsExactly_iff_reaches {Value : Type} {rank : UInt8 → ℤ} {cache : Cache Value}
    (braceless : '\x7d' ∉ cache.namespace_.toList) :
    ClearsExactly rank cache ↔
      ∀ namespace_ : String, '\x7d' ∉ namespace_.toList → ∀ name,
        (Reaches rank cache.namespace_ (tailOf namespace_ name) ↔
          namespace_ = cache.namespace_) := by
  rw [clearsExactly_iff_accepts]
  have own : ∀ namespace_ : String, '\x7d' ∉ namespace_.toList → ∀ name,
      (EntryOf cache.namespace_ ([99, 97, 99, 104, 101, 58, 123] ++ tailOf namespace_ name) ↔
        namespace_ = cache.namespace_) := by
    intro namespace_ braceless' name
    rw [entryOf_iff]
    constructor
    · rintro ⟨other, same⟩
      exact tailOf_namespace braceless' braceless (List.append_cancel_left same)
    · rintro rfl
      exact ⟨name, rfl⟩
  constructor
  · intro decided namespace_ braceless' name
    rw [← own namespace_ braceless' name, ← accepts_pattern]
    exact decided namespace_ braceless' _ (entryOf_iff.mpr ⟨name, rfl⟩)
  · intro decided namespace_ braceless' key entry
    obtain ⟨name, rfl⟩ := entryOf_iff.mp entry
    rw [accepts_pattern, own namespace_ braceless' name]
    exact decided namespace_ braceless' name

/-- The characters with a meaning of their own in a pattern. -/
def globCharacters : List Char := ['*', '?', '[', '\\']

theorem tame_iff {text : String} :
    (∀ b ∈ encode text, b ∉ wild) ↔ ∀ c ∈ text.toList, c ∉ globCharacters := by
  have ascii : ∀ c ∈ globCharacters, c.val.toNat ≤ 127 := by simp [globCharacters]
  have bytes : wild = globCharacters.map fun c => UInt8.ofNat c.val.toNat := by decide
  constructor
  · intro tame c member special
    refine tame _ ((mem_encode (ascii c special)).mpr member) ?_
    rw [bytes]
    exact List.mem_map_of_mem special
  · intro tame b member special
    rw [bytes] at special
    obtain ⟨c, among, rfl⟩ := List.mem_map.mp special
    exact tame c ((mem_encode (ascii c among)).mp member) among

/-! ## Which namespaces are cleared exactly -/

section Reach

variable {rank : UInt8 → ℤ} {namespace_ : String}

/-- A namespace without a glob character reaches its own keys alone. -/
theorem reaches_of_tame (tame : ∀ c ∈ namespace_.toList, c ∉ globCharacters) (tail : Bytes) :
    Reaches rank namespace_ tail ↔ ∃ rest, tail = encode namespace_ ++ 125 :: 58 :: rest := by
  have plain : ∀ b ∈ encode namespace_ ++ [125, 58], b ∉ wild := by
    intro b member
    rcases List.mem_append.mp member with inside | after
    · exact tame_iff.mpr tame b inside
    · have bytes : ∀ b ∈ ([125, 58] : Bytes), b ∉ wild := by simp [wild]
      exact bytes b after
  have pattern : encode namespace_ ++ [125, 58, 42] =
      (encode namespace_ ++ [125, 58]) ++ [42] := by simp
  rw [Reaches, pattern, tokens_plain_append rank plain, accepts_literals]
  constructor
  · rintro ⟨rest, rfl, _⟩
    exact ⟨rest, by simp⟩
  · rintro ⟨rest, rfl⟩
    exact ⟨rest, by simp, accepts_star_nil rest⟩

/-- Every position before the end of an encoded text lies within a character. -/
theorem exists_character (characters : List Char) {position : ℕ}
    (inside : position < (characters.flatMap String.utf8EncodeChar).length) :
    ∃ before c after, characters = before ++ c :: after ∧
      (before.flatMap String.utf8EncodeChar).length ≤ position ∧
      position < ((before ++ [c]).flatMap String.utf8EncodeChar).length := by
  induction characters using List.reverseRecOn with
  | nil => simp at inside
  | append_singleton before c ih =>
      by_cases earlier : position < (before.flatMap String.utf8EncodeChar).length
      · obtain ⟨before', c', after, rfl, low, high⟩ := ih earlier
        exact ⟨before', c', after ++ [c], by simp, low, high⟩
      · exact ⟨before, c, [], rfl, Nat.le_of_not_lt earlier, inside⟩

/-- A star takes up a character twice, and so a pattern with a star within the namespace
reaches another namespace once it reaches its own. -/
theorem reaches_other_of_star {before rest : List (Token UInt8)}
    (read : tokens rank (encode namespace_ ++ [125, 58, 42]) = before ++ .star :: rest)
    (starless : ∀ token ∈ before, token.IsOne)
    (early : before.length < (encode namespace_).length)
    (braceless : '\x7d' ∉ namespace_.toList) {name : String}
    (reached : Reaches rank namespace_ (tailOf namespace_ name)) :
    ∃ other : String, '\x7d' ∉ other.toList ∧ other ≠ namespace_ ∧
      Reaches rank namespace_ (tailOf other name) := by
  rw [Reaches, read] at reached
  obtain ⟨u, v, whole, left, right⟩ := accepts_append.mp reached
  have size := length_of_accepts starless left
  rw [encode_eq_flatMap] at early
  obtain ⟨p, c, q, split, low, high⟩ := exists_character namespace_.toList early
  -- The part before the star ends within `c`, which is taken a second time after it.
  have encoded : encode namespace_ =
      p.flatMap String.utf8EncodeChar ++ (String.utf8EncodeChar c ++
        q.flatMap String.utf8EncodeChar) := by
    rw [encode_eq_flatMap, split, List.flatMap_append, List.flatMap_cons]
  obtain ⟨y₁, rfl⟩ : p.flatMap String.utf8EncodeChar <+: u := by
    refine List.prefix_of_prefix_length_le ?_ (List.prefix_append u v) (size ▸ low)
    rw [← whole, tailOf, encoded, List.append_assoc]
    exact List.prefix_append ..
  rw [tailOf, encoded, List.append_assoc, List.append_assoc, List.append_assoc,
    List.append_cancel_left_eq] at whole
  obtain ⟨y₂, halves⟩ : y₁ <+: String.utf8EncodeChar c := by
    refine List.prefix_of_prefix_length_le (List.prefix_append y₁ v)
      (whole ▸ List.prefix_append ..) ?_
    rw [List.length_append] at size
    rw [List.flatMap_append, List.length_append] at high
    simp only [List.flatMap_cons, List.flatMap_nil, List.append_nil] at high
    omega
  rw [← halves, List.append_assoc, List.append_cancel_left_eq] at whole
  refine ⟨String.ofList (p ++ c :: c :: q), ?_, ?_, ?_⟩
  · rw [String.toList_ofList]
    rw [split] at braceless
    simpa using braceless
  · intro same
    have lengths := congrArg (fun text => text.toList.length) same
    simp only [String.toList_ofList, split, List.length_append, List.length_cons] at lengths
    omega
  · rw [Reaches, read, accepts_append]
    refine ⟨_, (y₂ ++ y₁) ++ v, ?_, left, accepts_star_append (y₂ ++ y₁) right⟩
    rw [tailOf, encode_eq_flatMap, String.toList_ofList, List.flatMap_append, List.flatMap_cons,
      List.flatMap_cons, ← halves, ← whole]
    simp only [List.append_assoc]

/-- With fewer tokens than bytes before its end and no star among them, the pattern does not
reach the namespace's own keys: the closing brace would stand within the namespace, or the
length is fixed. -/
theorem not_reaches_of_fewer {read : List (Token UInt8)}
    (ends : Ends 125 58 read (tokens rank (encode namespace_ ++ [125, 58, 42])))
    (fewer : read.length < (encode namespace_).length) (starless : ∀ token ∈ read, token.IsOne)
    (braceless : '\x7d' ∉ namespace_.toList) (name : String) :
    ¬ Reaches rank namespace_ (tailOf namespace_ name) := by
  intro reached
  rw [Reaches] at reached
  rcases ends with closed | ⟨admits, swallowed⟩
  · rw [closed] at reached
    obtain ⟨u, v, whole, left, right⟩ := accepts_append.mp reached
    obtain ⟨rest, rfl, _⟩ := accepts_literal_cons.mp right
    have size := length_of_accepts starless left
    have short : u ++ [125] <+: encode namespace_ := by
      have prefix_ : u ++ [125] <+: u ++ 125 :: rest := ⟨rest, by simp⟩
      refine List.prefix_of_prefix_length_le prefix_ (whole ▸ List.prefix_append ..) ?_
      rw [List.length_append, List.length_singleton, size]
      exact fewer
    have inside := short.subset (List.mem_append_right u (List.mem_singleton_self 125))
    exact braceless ((mem_encode (c := '\x7d') (by decide)).mp inside)
  · rw [swallowed] at reached
    have fixed : ∀ token ∈ read ++ [Token.one admits], token.IsOne := by
      intro token member
      rcases List.mem_append.mp member with before | last
      · exact starless token before
      · exact ⟨admits, List.mem_singleton.mp last⟩
    have size := length_of_accepts fixed reached
    rw [tailOf, List.length_append, List.length_append, List.length_cons] at size
    simp only [List.length_cons, List.length_nil] at size
    omega

theorem accepts_single_map (word : Bytes) : accepts (word.map single) word = true := by
  induction word with
  | nil => rfl
  | cons b word ih =>
      rw [List.map_cons, single]
      split
      · exact accepts_star.mpr ⟨[b], word, rfl, ih⟩
      · split
        · exact accepts_one.mpr ⟨b, word, rfl, rfl, ih⟩
        · exact accepts_literal_cons.mpr ⟨word, rfl, ih⟩

/-- A question mark stands for any byte, and so the pattern reaches another namespace. -/
theorem reaches_other_of_question
    (read : tokens rank (encode namespace_ ++ [125, 58, 42]) =
      (encode namespace_).map single ++ [literal 125, literal 58, .star])
    (question : '?' ∈ namespace_.toList) (braceless : '\x7d' ∉ namespace_.toList)
    (name : String) :
    ∃ other : String, '\x7d' ∉ other.toList ∧ other ≠ namespace_ ∧
      Reaches rank namespace_ (tailOf other name) := by
  obtain ⟨p, q, split⟩ := List.append_of_mem question
  have mark : String.utf8EncodeChar '?' = [63] := by decide
  have letter : String.utf8EncodeChar 'x' = [120] := by decide
  refine ⟨String.ofList (p ++ 'x' :: q), ?_, ?_, ?_⟩
  · rw [String.toList_ofList]
    rw [split] at braceless
    simpa using braceless
  · intro same
    have lists := congrArg String.toList same
    rw [String.toList_ofList, split] at lists
    exact absurd (List.cons.inj (List.append_cancel_left lists)).1 (by decide)
  · rw [Reaches, read, accepts_append]
    refine ⟨_, 125 :: 58 :: encode name, rfl, ?_, ?_⟩
    · rw [encode_eq_flatMap, encode_eq_flatMap, split, String.toList_ofList]
      simp only [List.flatMap_append, List.flatMap_cons, mark, letter, List.map_append,
        List.map_cons, List.singleton_append]
      refine accepts_append.mpr ⟨_, _, rfl, accepts_single_map _, ?_⟩
      exact accepts_one.mpr ⟨120, _, rfl, rfl, accepts_single_map _⟩
    · refine accepts_literal_cons.mpr ⟨_, rfl, accepts_literal_cons.mpr ⟨_, rfl, ?_⟩⟩
      exact accepts_star_nil _

theorem single_isOne_iff {b : UInt8} : (single b).IsOne ↔ b ≠ 42 := by
  unfold single
  split
  · rename_i star
    constructor
    · rintro ⟨admits, same⟩
      cases same
    · exact fun other => absurd star other
  · rename_i other
    refine ⟨fun _ => other, fun _ => ?_⟩
    split
    · exact ⟨_, rfl⟩
    · exact ⟨_, rfl⟩

/-- A namespace that reaches its own keys alone holds no glob character. -/
theorem tame_of_reaches (braceless : '\x7d' ∉ namespace_.toList)
    (alone : ∀ other : String, '\x7d' ∉ other.toList → ∀ name,
      (Reaches rank namespace_ (tailOf other name) ↔ other = namespace_)) :
    ∀ c ∈ namespace_.toList, c ∉ globCharacters := by
  have own := (alone namespace_ braceless "").mpr rfl
  have noOther : ¬ ∃ other : String, '\x7d' ∉ other.toList ∧ other ≠ namespace_ ∧
      Reaches rank namespace_ (tailOf other "") := by
    rintro ⟨other, braceless', different, reached⟩
    exact different ((alone other braceless' "").mp reached)
  have noStar : ∀ before rest, tokens rank (encode namespace_ ++ [125, 58, 42]) =
      before ++ .star :: rest → (∀ token ∈ before, token.IsOne) →
        ¬ before.length < (encode namespace_).length := by
    intro before rest read starless early
    exact noOther (reaches_other_of_star read starless early braceless own)
  have shape : Reads 125 58 (encode namespace_)
      (tokens rank (encode namespace_ ++ [125, 58, 42])) :=
    tokens_ending (by decide) (by decide) (encode namespace_)
  rcases shape with ⟨read, fewer, ends⟩ | ⟨each, read⟩
  · rcases starless_or_first read with starless | ⟨before, after, rfl, starless⟩
    · exact absurd own (not_reaches_of_fewer ends fewer starless braceless "")
    · have early : before.length < (encode namespace_).length := by
        rw [List.length_append, List.length_cons] at fewer
        omega
      rcases ends with closed | ⟨admits, swallowed⟩
      · exact absurd early (noStar before _ (closed.trans (List.append_assoc ..)) starless)
      · exact absurd early (noStar before _ (swallowed.trans (List.append_assoc ..)) starless)
  · rcases starless_or_first ((encode namespace_).map single) with
      starless | ⟨before, after, cut, starless⟩
    · refine tame_iff.mp fun b member special => ?_
      have star : b ≠ 42 := single_isOne_iff.mp (starless _ (List.mem_map_of_mem member))
      have question : b ≠ 63 := by
        rintro rfl
        have mark := (mem_encode (c := '?') (by decide)).mp member
        exact noOther (reaches_other_of_question read mark braceless "")
      simp [wild, star, question, each b member] at special
    · have early : before.length < (encode namespace_).length := by
        have lengths := congrArg List.length cut
        rw [List.length_map, List.length_append, List.length_cons] at lengths
        omega
      rw [cut, List.append_assoc] at read
      exact absurd early (noStar before _ read starless)

end Reach

/-- **What `clear` deletes.** On a healthy Redis it deletes exactly its own namespace's entries,
whatever is stored, if and only if the namespace holds no `*`, `?`, `[` or `\`. -/
theorem clears_exactly_iff {Value : Type} (rank : UInt8 → ℤ) (cache : Cache Value)
    (braceless : '\x7d' ∉ cache.namespace_.toList) :
    ClearsExactly rank cache ↔ ∀ c ∈ cache.namespace_.toList, c ∉ ['*', '?', '[', '\\'] := by
  rw [clearsExactly_iff_reaches braceless]
  refine ⟨tame_of_reaches braceless, fun tame other braceless' name => ?_⟩
  rw [reaches_of_tame tame]
  constructor
  · rintro ⟨rest, same⟩
    exact tailOf_namespace braceless' braceless same
  · rintro rfl
    exact ⟨encode name, rfl⟩

/-- A cache of the namespace, with a serializer of one value. -/
def plainCache (namespace_ : String) : Cache Unit :=
  { namespace_ := namespace_, ttlSeconds := some 300,
    serializer := { dumps := fun _ => .ok "null", loads := fun _ => .ok () } }

theorem products_clears_exactly :
    '\x7d' ∉ (plainCache "products").namespace_.toList
      ∧ ClearsExactly (fun b => b.toNat) (plainCache "products") := by
  have tame : ∀ c ∈ (plainCache "products").namespace_.toList, c ∉ ['*', '?', '[', '\\'] := by
    simp [plainCache]
  exact ⟨by decide, (clears_exactly_iff _ (plainCache "products") (by decide)).mpr tame⟩

/-- The cache of the namespace `*` deletes an entry of another namespace. -/
theorem star_clears_others :
    '\x7d' ∉ (plainCache "*").namespace_.toList
      ∧ (∃ keys scanIter, Written keys ∧ Healthy (fun b => b.toNat) keys scanIter
        ∧ (∃ key ∈ keys, EntryOf "products" key ∧ ¬ EntryOf "*" key)
        ∧ (plainCache "*").clear scanIter keys = (.ok 1, ∅))
      ∧ ¬ ClearsExactly (fun b => b.toNat) (plainCache "*") := by
  let key := encode ((plainCache "products").buildKey "k")
  have entry : EntryOf "products" key := ⟨Unit, plainCache "products", "k", rfl, rfl⟩
  have foreign : ¬ EntryOf "*" key := by
    rw [entryOf_iff]
    rintro ⟨name, same⟩
    have tails := List.append_cancel_left ((encode_buildKey _ "k").symm.trans same)
    exact absurd (tailOf_namespace (by decide) (by decide) tails) (by decide)
  have written : Written {key} := by
    intro other member
    rw [Finset.mem_singleton.mp member]
    exact ⟨"products", by decide, entry⟩
  have healthy := healthy_singleton (fun b => (b.toNat : ℤ)) key
  have cleared : (plainCache "*").clear (scanAlone (fun b => b.toNat) key) {key} =
      (.ok 1, ∅) := by rfl
  refine ⟨by decide, ⟨{key}, _, written, healthy, ⟨key, Finset.mem_singleton_self key, entry,
    foreign⟩, cleared⟩, fun exact_ => ?_⟩
  have kept := ((exact_ {key} written _ healthy).1 key).mpr
    ⟨Finset.mem_singleton_self key, foreign⟩
  rw [cleared] at kept
  exact absurd kept (Finset.notMem_empty key)

end PyCommon.CacheAside
