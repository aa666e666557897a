import PyCommon.Cache.FailOpen
import PyCommon.Lib.PythonEquality

/-!
# The JSON serializer

`JsonSerializer` stores `json.dumps` of a value and returns `json.loads` of what is stored. The
writer takes more values than the reader gives back: a tuple is stored as a list, and a key that
is no string as its text. So the call that computes a value and the calls that find it stored
return equal values exactly for the values that JSON keeps (`hit_equals_miss_iff`); a dictionary
with an integer for a key comes back with a string (`integer_key_changes`).
-/

set_option autoImplicit false

namespace PyCommon.CacheAside

open CodePoints (Text text)
open Python (Floating)

/-! ## The serializer -/

/-- What the interpreter leaves open: the limit of digits, how deep `json.dumps` and `json.loads`
go, and floats. -/
structure Runtime where
  maxStrDigits : ℕ
  dumpsRoom : ℕ
  loadsRoom : ℕ
  /-- `float` of a text. -/
  float : Text → Floating
  float_repr : ∀ x : Floating, float x.repr = x
  /-- The number that a finite float is. -/
  worth : Floating → ℚ

def typeError : Exc := { number := 4, isTypeOrValueError := true, derives := fun _ => rfl }

def recursionError : Exc := { number := 5, derives := fun _ => rfl }

/-- The exception of `json.dumps`. -/
def refused : Python.Refusal → Exc
  | .typeError => typeError
  | .valueError => valueError
  | .recursionError => recursionError

/-- The exception of `json.loads`: a `JSONDecodeError` is a `ValueError`. -/
def rejected : Json.Failure → Exc
  | .depth => recursionError
  | _ => valueError

variable (runtime : Runtime)

/-- `JsonSerializer`. -/
def jsonSerializer : Serializer Python.Value where
  dumps value :=
    match Python.dumps runtime.maxStrDigits runtime.dumpsRoom value with
    | .ok written => .ok (String.ofList (written.map Char.ofNat))
    | .error refusal => .error (refused refusal)
  loads raw :=
    match Json.loads (fun literal => (runtime.float literal).repr) runtime.maxStrDigits
        runtime.loadsRoom (text raw) with
    | .ok back => .ok (Python.ofJson runtime.float back)
    | .error failure => .error (rejected failure)

/-! ## Calls -/

/-- The reply to a `GET` carries the text, as the client decodes it or not. -/
def Raw.Carries (written : String) : Raw → Prop
  | .text stored => stored = written
  | .bytes stored => stored = encode written

/-- The call that computes the value stores its text and returns the value; the text is loaded
as an equal value, and every call that finds it returns an equal value. -/
structure HitEqualsMiss (cache : Cache Python.Value) (value : Python.Value) (written : String) :
    Prop where
  computes : ∀ key ttlSeconds, ∃ k,
    (cache.computeAndStore key ttlSeconds .done).step (.made (.ok value))
        = some (.set (cache.buildKey key) written (cache.px ttlSeconds) k)
      ∧ k (.ok ()) = .done (.ok value)
  loads : ∃ found, cache.serializer.loads written = .ok found
    ∧ Python.Equal runtime.worth found value
  hits : ∀ key ttlSeconds raw, raw.Carries written → ∃ found,
    (cache.getOrSet key ttlSeconds).step (.got (.ok (some raw))) = some (.done (.ok found))
      ∧ Python.Equal runtime.worth found value

section

variable {runtime} {cache : Cache Python.Value} {value : Python.Value} {written : String}

/-- What is loaded of the text of a value. -/
theorem loads_of_dumps (accepted : (jsonSerializer runtime).dumps value = .ok written) :
    (jsonSerializer runtime).loads written =
      match Python.reread runtime.maxStrDigits runtime.loadsRoom value with
      | .ok back => .ok (Python.ofJson runtime.float back)
      | .error failure => .error (rejected failure) := by
  simp only [jsonSerializer] at accepted ⊢
  split at accepted
  · rename_i content writes
    obtain rfl := Except.ok.inj accepted
    have float_repr : ∀ repr, Python.IsFinite repr → (runtime.float repr).repr = repr := by
      intro repr finite
      exact congrArg Floating.repr (runtime.float_repr ⟨repr, Or.inl finite⟩)
    have ascii := (Python.dumps_isText value writes).ascii
    rw [CodePoints.text_ofList fun c member => CodePoints.isScalar_of_ascii (ascii c member),
      Python.loads_dumps float_repr writes]
  · cases accepted

theorem decode_of_carries {raw : Raw} (carries : raw.Carries written) :
    cache.decode raw = Cache.decode.loaded cache written := by
  cases raw with
  | text stored =>
      obtain rfl : stored = written := carries
      rfl
  | bytes stored =>
      obtain rfl : stored = encode written := carries
      rw [Cache.decode, decode_encode]

/-- A call that finds the text returns what is loaded. -/
theorem hit_of_loads {found : Python.Value} (loaded : cache.serializer.loads written = .ok found)
    {raw : Raw} (carries : raw.Carries written) (key : String) (ttlSeconds : Option ℚ) :
    (cache.getOrSet key ttlSeconds).step (.got (.ok (some raw))) = some (.done (.ok found)) := by
  have decoded : cache.decode raw = .ok (some found) := by
    rw [decode_of_carries carries, Cache.decode.loaded, loaded]
  have looked : cache.looked (.ok (some raw)) = .ok (some found) := decoded
  simp only [Cache.getOrSet, Cache.lookup, Task.step, looked]

theorem computes_of_dumps (accepted : cache.serializer.dumps value = .ok written) (key : String)
    (ttlSeconds : Option ℚ) : ∃ k,
      (cache.computeAndStore key ttlSeconds .done).step (.made (.ok value))
          = some (.set (cache.buildKey key) written (cache.px ttlSeconds) k)
        ∧ k (.ok ()) = .done (.ok value) := by
  simp only [Cache.computeAndStore, Task.step, Cache.set, accepted]
  exact ⟨_, rfl, rfl⟩

end

/-- **When a hit returns what the miss returned.** For a value that `json.dumps` accepts, the
calls that find it stored return a value equal to the computed one exactly if it holds no tuple,
no key but strings, no halves of a surrogate pair side by side, and is nested no deeper than
`json.loads` reads. -/
theorem hit_equals_miss_iff {runtime : Runtime} {cache : Cache Python.Value}
    (json : cache.serializer = jsonSerializer runtime) {value : Python.Value} {written : String}
    (distinct : Python.Distinct runtime.worth value)
    (accepted : cache.serializer.dumps value = .ok written) :
    HitEqualsMiss runtime cache value written ↔ Python.Faithful runtime.loadsRoom value := by
  have back : (∃ back, Python.reread runtime.maxStrDigits runtime.loadsRoom value = .ok back
      ∧ Python.Equal runtime.worth (Python.ofJson runtime.float back) value) ↔
        Python.Faithful runtime.loadsRoom value :=
    Python.reread_equal_iff runtime.float_repr distinct
  rw [← back]
  rw [json] at accepted
  have loaded := loads_of_dumps accepted
  constructor
  · intro agrees
    obtain ⟨found, read, equal⟩ := agrees.loads
    rw [json, loaded] at read
    split at read
    · rename_i back reread
      obtain rfl := Except.ok.inj read
      exact ⟨back, reread, equal⟩
    · cases read
  · rintro ⟨back, reread, equal⟩
    have read : cache.serializer.loads written = .ok (Python.ofJson runtime.float back) := by
      rw [json, loaded, reread]
    refine ⟨computes_of_dumps (json ▸ accepted), ⟨_, read, equal⟩, ?_⟩
    intro key ttlSeconds raw carries
    exact ⟨_, hit_of_loads read carries key ttlSeconds, equal⟩

/-! ## Two values -/

def nan : Floating := ⟨text "nan", Or.inr (by decide)⟩

open Classical in
/-- `float` on the texts that are the `repr` of a float. -/
noncomputable def floatOfRepr (content : Text) : Floating :=
  if shape : Python.IsFinite content ∨ content ∈ Python.infinities then ⟨content, shape⟩
  else nan

/-- A runtime with the limit of 4300 digits, where containers are nested at most 1000 deep. -/
noncomputable def plainRuntime : Runtime where
  maxStrDigits := 4300
  dumpsRoom := 1000
  loadsRoom := 1000
  float := floatOfRepr
  float_repr x := dif_pos x.shape
  worth _ := 0

noncomputable def jsonCache : Cache Python.Value where
  namespace_ := "products"
  ttlSeconds := some 300
  serializer := jsonSerializer plainRuntime

/-- A dictionary of one key that is a string. -/
def named (key : Python.Value) : Python.Value :=
  .dict [(key, .list [.str ⟨text "one", by decide⟩, .none])]

theorem named_distinct (key : Python.Value) :
    Python.Distinct plainRuntime.worth (named key) :=
  ⟨List.pairwise_singleton _ _, ⟨trivial, trivial, trivial⟩, trivial⟩

/-- A string for a key: hits return what the miss returned. -/
theorem string_key_returned :
    HitEqualsMiss plainRuntime jsonCache (named (.str ⟨text "k", by decide⟩))
      "\x7b\"k\":[\"one\",null]\x7d" := by
  refine (hit_equals_miss_iff rfl (named_distinct _) rfl).mpr ?_
  have key : CodePoints.Apart (text "k") := by decide
  have item : CodePoints.Apart (text "one") := by decide
  exact ⟨⟨⟨text "k", by decide⟩, rfl, key⟩, ⟨item, trivial, trivial⟩, trivial⟩

/-- An integer for a key: a hit returns a dictionary with a string for it. -/
theorem integer_key_changes :
    Python.Distinct plainRuntime.worth (named (.int 1))
      ∧ jsonCache.serializer.dumps (named (.int 1)) = .ok "\x7b\"1\":[\"one\",null]\x7d"
      ∧ jsonCache.serializer.loads "\x7b\"1\":[\"one\",null]\x7d"
        = .ok (named (.str ⟨text "1", by decide⟩))
      ∧ ¬ Python.Equal plainRuntime.worth (named (.str ⟨text "1", by decide⟩))
        (named (.int 1)) := by
  have dumped : (jsonSerializer plainRuntime).dumps (named (.int 1))
      = .ok "\x7b\"1\":[\"one\",null]\x7d" := by rfl
  refine ⟨named_distinct _, dumped, (loads_of_dumps dumped).trans rfl, ?_⟩
  rintro ⟨-, ⟨other, member, key, -⟩, -⟩
  rw [List.mem_singleton.mp member] at key
  cases key

end PyCommon.CacheAside
