import PyCommon.Lib.PercentEncoding
import PyCommon.Lib.Separated

/-!
# Query strings

Python's `urllib.parse.parse_qsl`, with blank values kept, and `urlencode`. A query string is a
list of pairs, each with its first equals sign between name and value, and a plus sign stands for
a blank.

`parse_qsl` reads back what `urlencode` has written (`parseQsl_urlencode`), so `urlencode` writes
different lists of pairs differently (`urlencode_injective`).
-/

set_option autoImplicit false

namespace QueryStrings

open PercentEncoding Separated

/-- `content.replace(first, second)` for characters. -/
def replace (first second : Char) (content : List Char) : List Char :=
  content.map fun c => if c = first then second else c

/-- `quote_plus`. -/
def quotePlus (content : List Char) : List Char :=
  if ' ' ∈ content then replace ' ' '+' (quote [' '] content) else quote [] content

/-- `unquote_plus`. -/
def unquotePlus (content : List Char) : List Char := unquote (replace '+' ' ' content)

/-- `urlencode(pairs)`. -/
def urlencode (pairs : List (List Char × List Char)) : List Char :=
  ['&'].intercalate (pairs.map fun pair => quotePlus pair.1 ++ '=' :: quotePlus pair.2)

/-- `parse_qsl(query, keep_blank_values=True)`. -/
def parseQsl (query : List Char) : List (List Char × List Char) :=
  ((query.splitOn '&').filter fun nameValue => nameValue ≠ []).map fun nameValue =>
    (unquotePlus (partition '=' nameValue).1, unquotePlus (partition '=' nameValue).2)

/-! ## One name or value -/

theorem replace_of_notMem {first second : Char} {content : List Char} (absent : first ∉ content) :
    replace first second content = content := by
  refine (List.map_congr_left fun c member => ?_).trans (List.map_id content)
  have other : c ≠ first := ne_of_mem_of_not_mem member absent
  exact if_neg other

theorem replace_replace {first second : Char} {content : List Char} (absent : second ∉ content) :
    replace second first (replace first second content) = content := by
  rw [replace, replace, List.map_map]
  refine (List.map_congr_left fun c member => ?_).trans (List.map_id content)
  by_cases same : c = first
  · simp [same]
  · have other : c ≠ second := ne_of_mem_of_not_mem member absent
    simp [same, other]

theorem plus_notMem_quote {safe content : List Char} (plain : '+' ∉ safe) :
    '+' ∉ quote safe content := by
  intro member
  rcases mem_quote member with always | kept | percent_
  · exact absurd always (by decide)
  · exact plain kept
  · exact absurd percent_ (by decide)

/-- **A name or value is read back.** -/
theorem unquotePlus_quotePlus (content : List Char) :
    unquotePlus (quotePlus content) = content := by
  rw [unquotePlus, quotePlus]
  split
  · rw [replace_replace (plus_notMem_quote (by decide)), unquote_quote (by decide)]
  · rw [replace_of_notMem (plus_notMem_quote List.not_mem_nil), unquote_quote List.not_mem_nil]

/-- A name or value is written without the separators. -/
theorem separators_notMem_quotePlus (content : List Char) :
    '&' ∉ quotePlus content ∧ '=' ∉ quotePlus content := by
  have quoted : ∀ c ∈ quotePlus content, isAlwaysSafe c = true ∨ c = ' ' ∨ c = '%' ∨ c = '+' := by
    intro c member
    unfold quotePlus at member
    split at member
    · obtain ⟨d, inside, rfl⟩ := List.mem_map.mp member
      split
      · exact .inr (.inr (.inr rfl))
      · rcases mem_quote inside with always | kept | percent_
        · exact .inl always
        · exact .inr (.inl (List.mem_singleton.mp kept))
        · exact .inr (.inr (.inl percent_))
    · rcases mem_quote member with always | kept | percent_
      · exact .inl always
      · cases kept
      · exact .inr (.inr (.inl percent_))
  constructor
  · intro member
    exact absurd (quoted '&' member) (by decide)
  · intro member
    exact absurd (quoted '=' member) (by decide)

/-! ## The whole query -/

/-- **What is written is read back.** -/
theorem parseQsl_urlencode (pairs : List (List Char × List Char)) :
    parseQsl (urlencode pairs) = pairs := by
  cases pairs with
  | nil => rfl
  | cons first rest =>
      have apart : ∀ part ∈ (first :: rest).map
          (fun pair => quotePlus pair.1 ++ '=' :: quotePlus pair.2), '&' ∉ part := by
        intro part member
        obtain ⟨pair, _, rfl⟩ := List.mem_map.mp member
        simp only [List.mem_append, List.mem_cons, not_or]
        exact ⟨(separators_notMem_quotePlus _).1, by decide, (separators_notMem_quotePlus _).1⟩
      have present : ∀ part ∈ (first :: rest).map
          (fun pair => quotePlus pair.1 ++ '=' :: quotePlus pair.2), decide (part ≠ []) = true := by
        intro part member
        obtain ⟨pair, _, rfl⟩ := List.mem_map.mp member
        simp
      rw [parseQsl, urlencode, List.splitOn_intercalate '&' apart (List.cons_ne_nil _ _),
        List.filter_eq_self.mpr present, List.map_map]
      refine (List.map_congr_left fun pair _ => ?_).trans (List.map_id _)
      rw [Function.comp_apply, partition_append_cons (separators_notMem_quotePlus _).2]
      simp only [unquotePlus_quotePlus, id]

/-- **Different pairs are written differently.** -/
theorem urlencode_injective : Function.Injective urlencode := by
  intro first second same
  rw [← parseQsl_urlencode first, same, parseQsl_urlencode]

end QueryStrings
