import Mathlib.Data.List.Sort
import PyCommon.Cache.JsonSerializer
import PyCommon.Lib.PythonReprs

/-!
# The keys of cached calls

`cached` stores the result of a call under its function's `__qualname__` and a digest of the
`repr` of its arguments. The text that is digested tells the arguments (`payload_inj`), so two
calls of one namespace that use one key are calls of functions of one qualified name with the
same arguments, unless their digests collide (`same_call_of_same_key`). The module of a function
is not in the key, nor is anything else that tells two functions of one name apart
(`other_module_shares_key`).
-/

set_option autoImplicit false

namespace PyCommon.CacheAside

open StepSystem
open CodePoints (Text code text)

/-! ## The key of a call -/

/-- A function object. The number tells objects apart. -/
structure AsyncFunction where
  number : ℕ
  module_ : String
  qualname : String
  deriving DecidableEq

/-- What a function is called with. -/
structure Arguments where
  args : List Python.Value
  kwargs : List (Python.Str × Python.Value)
  distinct : (kwargs.map Prod.fst).Nodup

/-- What the interpreter leaves open: how far `repr` goes, which characters are printable, and
SHA-256. -/
structure Interpreter where
  maxStrDigits : ℕ
  reprRoom : ℕ
  printable : ℕ → Bool
  isScalar_of_printable : ∀ c, printable c = true → CodePoints.isScalar c = true
  hexdigest : Bytes → String
  length_hexdigest : ∀ content, (hexdigest content).toList.length = 64

/-- `sorted(kwargs.items())`. The names are different, so no two values are compared. -/
def Arguments.sortedItems (call : Arguments) : List (Python.Str × Python.Value) :=
  call.kwargs.insertionSort fun first second => first.1.points ≤ second.1.points

def item (pair : Python.Str × Python.Value) : Python.Value := .tuple [.str pair.1, pair.2]

variable (interp : Interpreter)

def Interpreter.repr (value : Python.Value) : Except Exc Text :=
  (Python.tryRepr interp.maxStrDigits interp.reprRoom interp.printable value).mapError refused

/-- The text that is digested: the arguments, a colon and the keyword arguments. -/
def Interpreter.payload (call : Arguments) : Except Exc Text := do
  let args ← interp.repr (.tuple call.args)
  let items ← interp.repr (.list (call.sortedItems.map item))
  return args ++ code ':' :: items

/-- `payload.encode()`, which never raises: no surrogate is printable (`payload_scalar`). -/
def encodePayload (payload : Text) : Bytes := encode (String.ofList (payload.map Char.ofNat))

/-- The digits of the digest that are kept. -/
def Interpreter.digest (content : Bytes) : String :=
  String.ofList ((interp.hexdigest content).toList.take 16)

/-- `default_key_builder`. -/
def defaultKeyBuilder (fn : AsyncFunction) (call : Arguments) : Except Exc String := do
  let payload ← interp.payload call
  return fn.qualname ++ ":" ++ interp.digest (encodePayload payload)

/-- A call of a function that `cached` wraps. -/
def wrapper {Value : Type} (cache : Cache Value) (fn : AsyncFunction) (call : Arguments) :
    Task Value :=
  match defaultKeyBuilder interp fn call with
  | .error e => .done (.error e)
  | .ok key => cache.getOrSet key (some (-1))

/-- The Redis key of the command a call awaits: of the entry, or of its lock. -/
def Task.redisKey {Value : Type} : Task Value → Option String
  | .get key _ | .set key _ _ _ | .acquire key _ _ _ | .release key _ => some key
  | .done _ | .factory _ => none

/-- In some run the call awaits a command on the key. -/
def Task.Uses {Value : Type} (task : Task Value) (redisKey : String) : Prop :=
  ∃ answers later, exec Task.step task answers = some later ∧ later.redisKey = some redisKey

/-- The digests of the two calls are equal only if what is digested is. -/
def Interpreter.NoCollision (call other : Arguments) : Prop :=
  ∀ payload payload', interp.payload call = .ok payload → interp.payload other = .ok payload' →
    interp.digest (encodePayload payload) = interp.digest (encodePayload payload') →
      encodePayload payload = encodePayload payload'

variable {interp}

/-! ## The payload -/

theorem repr_eq_ok {value : Python.Value} {written : Text}
    (writes : interp.repr value = .ok written) : Python.repr interp.printable value = written := by
  unfold Interpreter.repr at writes
  cases tried : Python.tryRepr interp.maxStrDigits interp.reprRoom interp.printable value with
  | error refusal =>
      rw [tried] at writes
      cases writes
  | ok text =>
      rw [tried] at writes
      exact (Python.tryRepr_eq_ok tried).trans (Except.ok.inj writes)

theorem payload_eq_ok {call : Arguments} {payload : Text}
    (built : interp.payload call = .ok payload) :
    payload = Python.repr interp.printable (.tuple call.args)
      ++ code ':' :: Python.repr interp.printable (.list (call.sortedItems.map item)) := by
  obtain ⟨args, first, built⟩ := Outcome.bind_eq_ok.mp built
  obtain ⟨items, second, built⟩ := Outcome.bind_eq_ok.mp built
  rw [repr_eq_ok first, repr_eq_ok second]
  exact (Except.ok.inj built).symm

/-- A payload is the text of a string. -/
theorem payload_scalar {call : Arguments} {payload : Text}
    (built : interp.payload call = .ok payload) : ∀ c ∈ payload, CodePoints.isScalar c = true := by
  have plain : ∀ value, ∀ c ∈ Python.repr interp.printable value, CodePoints.isScalar c = true :=
    Python.forall_mem_repr (fun _ small => CodePoints.isScalar_of_ascii small)
      interp.isScalar_of_printable
  intro c member
  rw [payload_eq_ok built] at member
  rcases List.mem_append.mp member with inArgs | member
  · exact plain _ c inArgs
  · rcases List.mem_cons.mp member with rfl | inItems
    · decide
    · exact plain _ c inItems

theorem encodePayload_inj {call other : Arguments} {payload payload' : Text}
    (built : interp.payload call = .ok payload) (built' : interp.payload other = .ok payload')
    (same : encodePayload payload = encodePayload payload') : payload = payload' := by
  have texts := congrArg text (encode_injective same)
  rwa [CodePoints.text_ofList (payload_scalar built),
    CodePoints.text_ofList (payload_scalar built')] at texts

theorem item_injective : Function.Injective item := by
  rintro ⟨name, value⟩ ⟨name', value'⟩ same
  obtain ⟨names, values⟩ := List.cons.inj (Python.Value.tuple.inj same)
  exact Prod.ext (Python.Value.str.inj names) (List.cons.inj values).1

/-- **The payload tells the arguments.** -/
theorem payload_inj {call other : Arguments} {payload : Text}
    (built : interp.payload call = .ok payload) (built' : interp.payload other = .ok payload) :
    call.args = other.args ∧ call.kwargs.Perm other.kwargs := by
  have same := (payload_eq_ok built).symm.trans (payload_eq_ok built')
  obtain ⟨args, after⟩ := Python.repr_inj _ _ (Python.ends_cons (by decide) _)
    (Python.ends_cons (by decide) _) same
  have ended : Python.Ends [] := fun _ first => nomatch first
  have items := (List.cons.inj after).2
  rw [← List.append_nil (Python.repr _ _),
    ← List.append_nil (Python.repr _ (.list (other.sortedItems.map item)))] at items
  obtain ⟨lists, -⟩ := Python.repr_inj _ _ ended ended items
  have sorted : call.sortedItems = other.sortedItems :=
    item_injective.list_map (Python.Value.list.inj lists)
  have own : call.sortedItems.Perm call.kwargs := List.perm_insertionSort _ _
  have others : other.sortedItems.Perm other.kwargs := List.perm_insertionSort _ _
  rw [sorted] at own
  exact ⟨Python.Value.tuple.inj args, own.symm.trans others⟩

/-! ## Keys -/

theorem length_digest (content : Bytes) : (interp.digest content).toList.length = 16 := by
  rw [Interpreter.digest, String.toList_ofList, List.length_take, interp.length_hexdigest]
  rfl

/-- A key is cut before its last seventeen characters. -/
theorem qualname_digest_inj {name name' : String} {content content' : Bytes}
    (same : name ++ ":" ++ interp.digest content = name' ++ ":" ++ interp.digest content') :
    name = name' ∧ interp.digest content = interp.digest content' := by
  have chars := congrArg String.toList same
  rw [String.toList_append, String.toList_append, String.toList_append,
    String.toList_append] at chars
  have size : (interp.digest content).toList.length = (interp.digest content').toList.length := by
    rw [length_digest, length_digest]
  obtain ⟨front, digests⟩ := List.append_inj' chars size
  exact ⟨String.toList_inj.mp (List.append_cancel_right front), String.toList_inj.mp digests⟩

/-- **Equal keys are keys of one qualified name and of the same arguments.** -/
theorem key_inj {fn fn' : AsyncFunction} {call other : Arguments} {key : String}
    (noCollision : interp.NoCollision call other)
    (built : defaultKeyBuilder interp fn call = .ok key)
    (built' : defaultKeyBuilder interp fn' other = .ok key) :
    fn.qualname = fn'.qualname ∧ call.args = other.args ∧ call.kwargs.Perm other.kwargs := by
  obtain ⟨payload, digested, named⟩ := Outcome.bind_eq_ok.mp built
  obtain ⟨payload', digested', named'⟩ := Outcome.bind_eq_ok.mp built'
  obtain ⟨names, digests⟩ := qualname_digest_inj
    ((Except.ok.inj named).trans (Except.ok.inj named').symm)
  have bytes := noCollision payload payload' digested digested' digests
  obtain rfl := encodePayload_inj digested digested' bytes
  exact ⟨names, payload_inj digested digested'⟩

/-! ## Calls -/

section Calls

variable {Value : Type} {cache : Cache Value} {key redisKey : String} {ttlSeconds : Option ℚ}

/-- A call of `get_or_set` uses the key of its entry and that of its lock. -/
theorem redisKey_task {phase : Phase Value}
    (awaits : (cache.task key ttlSeconds phase).redisKey = some redisKey) :
    redisKey = cache.buildKey key ∨ redisKey = "lock:" ++ cache.lockName key := by
  cases phase with
  | lookingUp => exact Or.inl (Option.some.inj awaits).symm
  | acquiring => exact Or.inr (Option.some.inj awaits).symm
  | rechecking => exact Or.inl (Option.some.inj awaits).symm
  | computing held => cases awaits
  | storing held value raw => exact Or.inl (Option.some.inj awaits).symm
  | releasing result => exact Or.inr (Option.some.inj awaits).symm
  | ended result => cases awaits

theorem uses_getOrSet (uses : (cache.getOrSet key ttlSeconds).Uses redisKey) :
    redisKey = cache.buildKey key ∨ redisKey = "lock:" ++ cache.lockName key := by
  obtain ⟨answers, later, run, awaits⟩ := uses
  rw [show cache.getOrSet key ttlSeconds = cache.task key ttlSeconds .lookingUp from rfl,
    exec_task, Option.map_eq_some_iff] at run
  obtain ⟨phase, -, rfl⟩ := run
  exact redisKey_task awaits

/-- A call whose key is not built uses none. -/
theorem uses_wrapper {fn : AsyncFunction} {call : Arguments}
    (uses : (wrapper interp cache fn call).Uses redisKey) :
    ∃ key, defaultKeyBuilder interp fn call = .ok key
      ∧ (redisKey = cache.buildKey key ∨ redisKey = "lock:" ++ cache.lockName key) := by
  unfold wrapper at uses
  cases built : defaultKeyBuilder interp fn call with
  | ok key =>
      rw [built] at uses
      exact ⟨key, rfl, uses_getOrSet uses⟩
  | error e =>
      rw [built] at uses
      obtain ⟨answers, later, run, awaits⟩ := uses
      cases answers with
      | nil =>
          obtain rfl := Option.some.inj run
          cases awaits
      | cons answer answers => cases run

/-- In one namespace an entry and a lock have different keys, and each has its own. -/
theorem key_of_redisKey {Value' : Type} {cache' : Cache Value'} {key' : String}
    (shared : cache.namespace_ = cache'.namespace_)
    (first : redisKey = cache.buildKey key ∨ redisKey = "lock:" ++ cache.lockName key)
    (second : redisKey = cache'.buildKey key' ∨ redisKey = "lock:" ++ cache'.lockName key') :
    key = key' := by
  have apart : ∀ lock : String, cache.buildKey key ≠ "lock:" ++ lock
      ∧ cache'.buildKey key' ≠ "lock:" ++ lock := by
    intro lock
    constructor <;> intro same
    all_goals
      have heads := congrArg (fun name : String => name.toList.head?) same
      simp [Cache.buildKey] at heads
  rcases first with entry | lock
  · rcases second with entry' | lock'
    · have same := entry.symm.trans entry'
      rw [Cache.buildKey, Cache.buildKey, shared] at same
      exact (String.append_right_inj _).mp same
    · exact absurd (entry.symm.trans lock') (apart _).1
  · rcases second with entry' | lock'
    · exact absurd (entry'.symm.trans lock) (apart _).2
    · have same := (String.append_right_inj _).mp (lock.symm.trans lock')
      rw [Cache.lockName, Cache.lockName, shared] at same
      exact (String.append_right_inj _).mp same

/-- **Calls that share a key are the same call of one qualified name.** -/
theorem same_call_of_same_key {Value' : Type} {cache' : Cache Value'} {fn fn' : AsyncFunction}
    {call other : Arguments} (shared : cache.namespace_ = cache'.namespace_)
    (noCollision : interp.NoCollision call other)
    (uses : (wrapper interp cache fn call).Uses redisKey)
    (uses' : (wrapper interp cache' fn' other).Uses redisKey) :
    fn.qualname = fn'.qualname ∧ call.args = other.args ∧ call.kwargs.Perm other.kwargs := by
  obtain ⟨key, built, named⟩ := uses_wrapper uses
  obtain ⟨key', built', named'⟩ := uses_wrapper uses'
  obtain rfl := key_of_redisKey shared named named'
  exact key_inj noCollision built built'

end Calls

/-! ## Two functions -/

/-- Some texts and their SHA-256. -/
def digests : List (String × String) :=
  [("('p1',):[]", "b4949039fe6e0144d632f2f6c8dfc0520c03afd03618fb7d96e635ce5151ea54"),
   ("(nan,):[]", "fe9fbba966fb88417dde40db9362b83ed83f18415c23b170e87ac7d8da76329c"),
   ("('p1',):[('currency', 'EUR'), ('region', 'DE')]",
    "d2f15641b3b91a2132c28766616c302dcf9d0cbe50cf6d521075e88fcd89e27d")]

/-- SHA-256 on those texts. -/
def tabulated (content : Bytes) : String :=
  match digests.find? fun known => encode known.1 = content with
  | some known => known.2
  | none => String.ofList (List.replicate 64 '0')

theorem length_tabulated (content : Bytes) : (tabulated content).toList.length = 64 := by
  have sizes : ∀ known ∈ digests, known.2.toList.length = 64 := by decide
  unfold tabulated
  split
  · rename_i known found
    exact sizes known (List.mem_of_find?_eq_some found)
  · rw [String.toList_ofList, List.length_replicate]

/-- An interpreter that prints ASCII as it is. -/
def asciiInterpreter : Interpreter where
  maxStrDigits := 4300
  reprRoom := 1000
  printable c := 0x20 ≤ c ∧ c < 0x7F
  isScalar_of_printable := by
    intro c printable
    have inside := of_decide_eq_true printable
    exact CodePoints.isScalar_of_ascii (Nat.lt_trans inside.2 (by decide))
  hexdigest := tabulated
  length_hexdigest := length_tabulated

def getProduct : AsyncFunction where
  number := 1
  module_ := "shop.products"
  qualname := "get"

def getUser : AsyncFunction where
  number := 2
  module_ := "shop.users"
  qualname := "get"

def currency : Python.Str × Python.Value :=
  (⟨text "currency", by decide⟩, .str ⟨text "EUR", by decide⟩)

def region : Python.Str × Python.Value :=
  (⟨text "region", by decide⟩, .str ⟨text "DE", by decide⟩)

/-- The arguments `"p1", region="DE", currency="EUR"`, or the keyword arguments in order. -/
def productCall (ordered : Bool) : Arguments where
  args := [.str ⟨text "p1", by decide⟩]
  kwargs := if ordered then [currency, region] else [region, currency]
  distinct := by cases ordered <;> decide

theorem noCollision_of_payload {call other : Arguments}
    (same : interp.payload call = interp.payload other) : interp.NoCollision call other := by
  intro payload payload' built built' _
  rw [Except.ok.inj (built.symm.trans (same.trans built'))]

/-- Neither the module nor the order of the keyword arguments is in the key. -/
theorem ordered_call_shares_key :
    getProduct.qualname = getUser.qualname
      ∧ (productCall false).args = (productCall true).args
      ∧ (productCall false).kwargs.Perm (productCall true).kwargs := by
  have payloads : asciiInterpreter.payload (productCall false)
      = asciiInterpreter.payload (productCall true) := by rfl
  have uses : (wrapper asciiInterpreter jsonCache getProduct (productCall false)).Uses
      "cache:\x7bproducts\x7d:get:d2f15641b3b91a21" := ⟨[], _, rfl, by rfl⟩
  have uses' : (wrapper asciiInterpreter jsonCache getUser (productCall true)).Uses
      "cache:\x7bproducts\x7d:get:d2f15641b3b91a21" := ⟨[], _, rfl, by rfl⟩
  exact same_call_of_same_key rfl (noCollision_of_payload payloads) uses uses'

/-- A call with one positional argument. -/
def callWith (arg : Python.Value) : Arguments where
  args := [arg]
  kwargs := []
  distinct := List.nodup_nil

/-- Functions of one name in two modules share the key of `"p1"`, and two calls with a NaN, which
is not equal to itself, share a key. -/
theorem other_module_shares_key :
    getProduct.module_ ≠ getUser.module_
      ∧ asciiInterpreter.NoCollision (callWith (.str ⟨text "p1", by decide⟩))
        (callWith (.str ⟨text "p1", by decide⟩))
      ∧ (∀ fn ∈ [getProduct, getUser],
        (wrapper asciiInterpreter jsonCache fn (callWith (.str ⟨text "p1", by decide⟩))).Uses
          "cache:\x7bproducts\x7d:get:b4949039fe6e0144")
      ∧ (wrapper asciiInterpreter jsonCache getProduct (callWith (.float nan))).Uses
          "cache:\x7bproducts\x7d:get:fe9fbba966fb8841"
      ∧ ¬ Python.EqualItems plainRuntime.worth (callWith (.float nan)).args
          (callWith (.float nan)).args := by
  refine ⟨by decide, noCollision_of_payload rfl, ?_, ⟨[], _, rfl, by rfl⟩, ?_⟩
  · intro fn member
    simp only [List.mem_cons, List.not_mem_nil, or_false] at member
    rcases member with rfl | rfl
    · exact ⟨[], _, rfl, by rfl⟩
    · exact ⟨[], _, rfl, by rfl⟩
  · rintro ⟨same, -⟩
    rcases same with ⟨q, worth, -⟩ | ⟨x, first, -, -, finite⟩
    · cases worth
    · obtain rfl := Python.Value.float.inj first
      exact finite rfl

end PyCommon.CacheAside
