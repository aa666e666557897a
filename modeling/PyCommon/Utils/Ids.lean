import Mathlib.Data.Nat.Bitwise
import PyCommon.Lib.Runs

/-!
# UUIDs of version 7

`new_uuid7` packs 48 bits of milliseconds, a counter of 12 bits and 62 random bits into a UUID.
The counter starts at random in a millisecond other than the last one and is incremented in
that one; when it runs over, the call waits until the clock shows another millisecond.

So of two values the one with the later millisecond is the larger, and the values of one stay
in a millisecond ascend. But nothing is kept of a millisecond that was left. When the clock
steps back into one, the counter starts anew, and the new value is larger than the old ones
there exactly when the counter happens to start beyond theirs (`ordered_iff_advances`).
-/

set_option autoImplicit false

namespace PyCommon.Ids

open StepSystem

/-! ## The layout -/

/-- The value of a UUID of version 7. -/
def layout (tsMs counter randB : ℕ) : ℕ :=
  tsMs <<< 80 ||| 0x7 <<< 76 ||| counter <<< 64 ||| 0b10 <<< 62 ||| randB

/-- `uuid.UUID.variant`. -/
inductive Variant where
  | reservedNcs
  | rfc4122
  | reservedMicrosoft
  | reservedFuture
  deriving DecidableEq

def variant (value : ℕ) : Variant :=
  if !value.testBit 63 then .reservedNcs
  else if !value.testBit 62 then .rfc4122
  else if !value.testBit 61 then .reservedMicrosoft
  else .reservedFuture

/-- `uuid.UUID.version`. -/
def version (value : ℕ) : Option ℕ :=
  if variant value = .rfc4122 then some (value >>> 76 &&& 0xF) else none

/-- The milliseconds in a value. -/
def timestamp (value : ℕ) : ℕ := value >>> 80

/-- The counter in a value. -/
def counterOf (value : ℕ) : ℕ := value >>> 64 &&& 0xFFF

/-- The random bits after the variant. -/
def tailOf (value : ℕ) : ℕ := value &&& 0x3FFFFFFFFFFFFFFF

/-! ## The generator -/

/-- What a call draws: the first reading of the clock, `int(time.time() * 1000)`, those it makes
while it waits, and its random bytes. -/
structure Draw where
  reading : ℤ
  spins : List ℤ := []
  seed : UInt16
  rand : UInt64
  deriving DecidableEq

/-- `_uuid7_last_ts_ms` and `_uuid7_counter`, and the values returned so far. -/
structure Generator where
  lastTsMs : ℤ := -1
  counter : ℕ := 0
  issued : List ℕ := []
  deriving DecidableEq

/-- `& 0xFFFFFFFFFFFF`. -/
def millis (reading : ℤ) : ℕ := (reading % 2 ^ 48).toNat

/-- The loop that waits for another millisecond. -/
def spin (lastTsMs : ℤ) : List ℤ → Option ℕ
  | [] => none
  | reading :: later =>
      if millis reading ≠ lastTsMs then some (millis reading) else spin lastTsMs later

def Draw.counter (d : Draw) : ℕ := d.seed.toNat &&& 0x0FFF

def Draw.randB (d : Draw) : ℕ := d.rand.toNat &&& 0x3FFFFFFFFFFFFFFF

/-- The block under the lock: the milliseconds and the counter of the value. -/
def locked (g : Generator) (d : Draw) : Option (ℕ × ℕ) :=
  if millis d.reading = g.lastTsMs then
    if g.counter + 1 &&& 0x0FFF = 0 then (spin g.lastTsMs d.spins).map fun tsMs => (tsMs, 0)
    else some (millis d.reading, g.counter + 1 &&& 0x0FFF)
  else some (millis d.reading, d.counter)

/-- `new_uuid7`. A call that is still waiting when its readings end does not return. -/
def newUuid7 (g : Generator) (d : Draw) : Option Generator :=
  (locked g d).map fun (tsMs, counter) =>
    ⟨tsMs, counter, g.issued ++ [layout tsMs counter d.randB]⟩

/-! ## What is promised of the values -/

/-- Every value is a UUID of version 7, the one with the larger timestamp is the larger, and of
two with the same timestamp the one returned later is. -/
structure Ordered (g : Generator) : Prop where
  version : ∀ value ∈ g.issued, version value = some 7 ∧ variant value = .rfc4122
  later : ∀ first ∈ g.issued, ∀ second ∈ g.issued, timestamp first < timestamp second →
    first < second
  same : g.issued.Pairwise fun first second => timestamp first = timestamp second → first < second

instance (g : Generator) : Decidable (Ordered g) :=
  decidable_of_iff ((∀ value ∈ g.issued, version value = some 7 ∧ variant value = .rfc4122) ∧
    (∀ first ∈ g.issued, ∀ second ∈ g.issued, timestamp first < timestamp second →
      first < second) ∧
    g.issued.Pairwise fun first second => timestamp first = timestamp second → first < second)
    ⟨fun ⟨version, later, same⟩ => ⟨version, later, same⟩,
      fun ⟨version, later, same⟩ => ⟨version, later, same⟩⟩

/-- The millisecond that a call enters, and the counter it starts there with: the one of its
seed, or zero when it has waited. -/
def enters (g : Generator) (d : Draw) : Option (ℕ × ℕ) :=
  if millis d.reading ≠ g.lastTsMs then some (millis d.reading, d.counter)
  else if g.counter = 0x0FFF then (spin g.lastTsMs d.spins).map fun tsMs => (tsMs, 0)
  else none

/-- A millisecond that a call enters has no value yet whose counter reaches the one that the
call starts with, or only one that equals it and whose random bits are below. -/
def Advances (g : Generator) (d : Draw) : Prop :=
  ∀ entered ∈ enters g d, ∀ value ∈ g.issued, timestamp value = entered.1 →
    counterOf value < entered.2 ∨ counterOf value = entered.2 ∧ tailOf value < d.randB

instance (g : Generator) (d : Draw) : Decidable (Advances g d) :=
  inferInstanceAs (Decidable (∀ entered ∈ enters g d, ∀ value ∈ g.issued,
    timestamp value = entered.1 →
      counterOf value < entered.2 ∨ counterOf value = entered.2 ∧ tailOf value < d.randB))

/-! ## Reading the layout -/

section Layout

variable {tsMs counter randB : ℕ}

/-- The fields do not overlap. -/
theorem layout_eq (counted : counter < 2 ^ 12) (drawn : randB < 2 ^ 62) :
    layout tsMs counter randB =
      tsMs * 2 ^ 80 + (7 * 2 ^ 76 + (counter * 2 ^ 64 + (2 * 2 ^ 62 + randB))) := by
  have tail : 2 <<< 62 ||| randB = 2 * 2 ^ 62 + randB := by
    rw [← Nat.shiftLeft_add_eq_or_of_lt drawn, Nat.shiftLeft_eq]
  have third : counter <<< 64 ||| (2 * 2 ^ 62 + randB)
      = counter * 2 ^ 64 + (2 * 2 ^ 62 + randB) := by
    rw [← Nat.shiftLeft_add_eq_or_of_lt (by omega), Nat.shiftLeft_eq]
  have second : 7 <<< 76 ||| (counter * 2 ^ 64 + (2 * 2 ^ 62 + randB)) =
      7 * 2 ^ 76 + (counter * 2 ^ 64 + (2 * 2 ^ 62 + randB)) := by
    rw [← Nat.shiftLeft_add_eq_or_of_lt (by omega), Nat.shiftLeft_eq]
  rw [layout, Nat.or_assoc, Nat.or_assoc, Nat.or_assoc, tail, third, second,
    ← Nat.shiftLeft_add_eq_or_of_lt (by omega), Nat.shiftLeft_eq]

theorem timestamp_layout (counted : counter < 2 ^ 12) (drawn : randB < 2 ^ 62) :
    timestamp (layout tsMs counter randB) = tsMs := by
  rw [timestamp, layout_eq counted drawn, Nat.shiftRight_eq_div_pow]
  omega

theorem counterOf_layout (counted : counter < 2 ^ 12) (drawn : randB < 2 ^ 62) :
    counterOf (layout tsMs counter randB) = counter := by
  rw [counterOf, layout_eq counted drawn, Nat.shiftRight_eq_div_pow,
    Nat.and_two_pow_sub_one_eq_mod _ 12]
  omega

theorem tailOf_layout (counted : counter < 2 ^ 12) (drawn : randB < 2 ^ 62) :
    tailOf (layout tsMs counter randB) = randB := by
  rw [tailOf, layout_eq counted drawn, Nat.and_two_pow_sub_one_eq_mod _ 62]
  omega

theorem variant_layout (counted : counter < 2 ^ 12) (drawn : randB < 2 ^ 62) :
    variant (layout tsMs counter randB) = .rfc4122 := by
  have first : (layout tsMs counter randB).testBit 63 = true := by
    rw [layout_eq counted drawn, Nat.testBit_eq_decide_div_mod_eq]
    exact decide_eq_true (by omega)
  have second : (layout tsMs counter randB).testBit 62 = false := by
    rw [layout_eq counted drawn, Nat.testBit_eq_decide_div_mod_eq]
    exact decide_eq_false (by omega)
  rw [variant, first, second]
  rfl

theorem version_layout (counted : counter < 2 ^ 12) (drawn : randB < 2 ^ 62) :
    version (layout tsMs counter randB) = some 7 := by
  rw [version, if_pos (variant_layout counted drawn), layout_eq counted drawn,
    Nat.shiftRight_eq_div_pow, Nat.and_two_pow_sub_one_eq_mod _ 4]
  congr 1
  omega

end Layout

/-- A value that the layout makes. -/
def IsLayout (value : ℕ) : Prop :=
  ∃ tsMs counter randB, counter < 2 ^ 12 ∧ randB < 2 ^ 62 ∧ value = layout tsMs counter randB

/-- Values are compared by their fields. -/
theorem lt_iff {first second : ℕ} (made : IsLayout first) (made' : IsLayout second) :
    first < second ↔ timestamp first < timestamp second ∨ timestamp first = timestamp second ∧
      (counterOf first < counterOf second ∨
        counterOf first = counterOf second ∧ tailOf first < tailOf second) := by
  obtain ⟨tsMs, counter, randB, counted, drawn, rfl⟩ := made
  obtain ⟨tsMs', counter', randB', counted', drawn', rfl⟩ := made'
  rw [timestamp_layout counted drawn, counterOf_layout counted drawn, tailOf_layout counted drawn,
    timestamp_layout counted' drawn', counterOf_layout counted' drawn',
    tailOf_layout counted' drawn', layout_eq counted drawn, layout_eq counted' drawn']
  omega

/-! ## A call -/

section Call

variable {g next : Generator} {d : Draw}

theorem Draw.counter_lt (d : Draw) : d.counter < 2 ^ 12 := by
  rw [Draw.counter, Nat.and_two_pow_sub_one_eq_mod _ 12]
  exact Nat.mod_lt _ (by decide)

theorem Draw.randB_lt (d : Draw) : d.randB < 2 ^ 62 := by
  rw [Draw.randB, Nat.and_two_pow_sub_one_eq_mod _ 62]
  exact Nat.mod_lt _ (by decide)

/-- A call enters a millisecond, or stays in the last one with the next counter. -/
theorem locked_eq_some {tsMs counter : ℕ} (counted : g.counter < 2 ^ 12)
    (taken : locked g d = some (tsMs, counter)) :
    (enters g d = some (tsMs, counter) ∨
      enters g d = none ∧ (tsMs : ℤ) = g.lastTsMs ∧ counter = g.counter + 1) ∧
    counter < 2 ^ 12 := by
  have next_eq : g.counter + 1 &&& 0x0FFF = (g.counter + 1) % 2 ^ 12 :=
    Nat.and_two_pow_sub_one_eq_mod _ 12
  rw [locked, next_eq] at taken
  by_cases stays : (millis d.reading : ℤ) = g.lastTsMs
  · rw [if_pos stays] at taken
    by_cases full : g.counter = 0x0FFF
    · rw [if_pos (by omega)] at taken
      obtain ⟨found, -, same⟩ := Option.map_eq_some_iff.mp taken
      rw [enters, if_neg (not_not.mpr stays), if_pos full]
      obtain ⟨-, rfl⟩ := Prod.mk.inj same
      exact ⟨.inl taken, by decide⟩
    · rw [if_neg (by omega), Option.some.injEq, Prod.mk.injEq] at taken
      rw [enters, if_neg (not_not.mpr stays), if_neg full]
      obtain ⟨rfl, rfl⟩ := taken
      exact ⟨.inr ⟨rfl, stays, by omega⟩, by omega⟩
  · rw [if_neg stays, Option.some.injEq] at taken
    rw [enters, if_pos stays]
    obtain ⟨-, rfl⟩ := Prod.mk.inj taken
    exact ⟨.inl (congrArg some taken), d.counter_lt⟩

/-- The values are packed as they should be and in order, and those of the last millisecond do
not exceed its counter. -/
structure Tracks (g : Generator) : Prop where
  counted : g.counter < 2 ^ 12
  made : ∀ value ∈ g.issued, IsLayout value
  reached : ∀ value ∈ g.issued, (timestamp value : ℤ) = g.lastTsMs → counterOf value ≤ g.counter
  same : g.issued.Pairwise fun first second => timestamp first = timestamp second → first < second

theorem Tracks.ordered (tracks : Tracks g) : Ordered g := by
  refine ⟨fun value issued => ?_, fun first issued second issued' sooner => ?_, tracks.same⟩
  · obtain ⟨tsMs, counter, randB, counted, drawn, rfl⟩ := tracks.made value issued
    exact ⟨version_layout counted drawn, variant_layout counted drawn⟩
  · exact (lt_iff (tracks.made first issued) (tracks.made second issued')).mpr (.inl sooner)

/-- **A call that advances keeps the values in order.** -/
theorem Tracks.step (tracks : Tracks g) (advances : Advances g d)
    (taken : newUuid7 g d = some next) : Tracks next := by
  obtain ⟨⟨tsMs, counter⟩, found, rfl⟩ := Option.map_eq_some_iff.mp taken
  obtain ⟨cases_, counted⟩ := locked_eq_some tracks.counted found
  have drawn := d.randB_lt
  have below : ∀ value ∈ g.issued, timestamp value = tsMs →
      counterOf value < counter ∨ counterOf value = counter ∧ tailOf value < d.randB := by
    intro value issued same
    rcases cases_ with entered | ⟨-, stays, rfl⟩
    · exact advances _ entered value issued same
    · refine .inl (Nat.lt_succ_of_le (tracks.reached value issued ?_))
      rw [same, stays]
  have made : IsLayout (layout tsMs counter d.randB) :=
    ⟨tsMs, counter, d.randB, counted, drawn, rfl⟩
  refine ⟨counted, fun value issued => ?_, fun value issued same => ?_, ?_⟩
  · rcases List.mem_append.mp issued with old | new
    · exact tracks.made value old
    · rwa [List.mem_singleton.mp new]
  · rcases List.mem_append.mp issued with old | new
    · have there := below value old (Int.ofNat_inj.mp same)
      dsimp only
      omega
    · rw [List.mem_singleton.mp new, counterOf_layout counted drawn]
  · refine List.pairwise_append.mpr ⟨tracks.same, List.pairwise_singleton .., ?_⟩
    intro first old second new same
    rw [List.mem_singleton.mp new] at same ⊢
    rw [timestamp_layout counted drawn] at same
    rw [lt_iff (tracks.made first old) made, timestamp_layout counted drawn,
      counterOf_layout counted drawn, tailOf_layout counted drawn]
    exact .inr ⟨same, below first old same⟩

/-- A call that does not advance returns a value that is out of order. -/
theorem not_ordered_of_not_advances (tracks : Tracks g) (behind : ¬ Advances g d)
    (taken : newUuid7 g d = some next) : ¬ Ordered next := by
  intro ordered
  obtain ⟨⟨tsMs, counter⟩, found, rfl⟩ := Option.map_eq_some_iff.mp taken
  obtain ⟨cases_, counted⟩ := locked_eq_some tracks.counted found
  have drawn := d.randB_lt
  refine behind fun entered enters_ value issued same => ?_
  rcases cases_ with here | ⟨none_, -⟩
  · obtain rfl := Option.some.inj (here.symm.trans enters_)
    have later := (List.pairwise_append.mp ordered.same).2.2 value issued _ List.mem_cons_self
    rw [timestamp_layout counted drawn] at later
    have above := later same
    rw [lt_iff (tracks.made value issued) ⟨tsMs, counter, d.randB, counted, drawn, rfl⟩,
      timestamp_layout counted drawn, counterOf_layout counted drawn,
      tailOf_layout counted drawn] at above
    rcases above with sooner | ⟨_, fields⟩
    · exact absurd same sooner.ne
    · exact fields
  · rw [none_] at enters_
    cases enters_

end Call

/-! ## Runs -/

theorem tracks_start : Tracks {} where
  counted := by decide
  made _ none_ := by cases none_
  reached _ none_ := by cases none_
  same := List.Pairwise.nil

/-- **When UUIDs of version 7 are ordered.** Along any calls that return, with any readings of
the clock and any random bytes, the values are of version 7 and in the order of their
timestamps, and within a timestamp in the order of the calls, exactly if every call that enters
a millisecond starts beyond the values that were issued in it before. -/
theorem ordered_iff_advances (draws : List Draw) (g : Generator)
    (returned : exec newUuid7 {} draws = some g) :
    EveryState newUuid7 Ordered {} draws ↔ EveryStep newUuid7 Advances {} draws := by
  have sub : ∀ g : Generator, Tracks g → Ordered g := fun _ tracks => tracks.ordered
  have kept : ∀ g d next, True → Advances g d → Tracks g → newUuid7 g d = some next →
      Tracks next := fun _ _ _ _ advances tracks taken => tracks.step advances taken
  have broken : ∀ g d next, True → ¬ Advances g d → Tracks g → newUuid7 g d = some next →
      ¬ Ordered next := fun _ _ _ _ behind tracks taken =>
    not_ordered_of_not_advances tracks behind taken
  have every : EveryStep newUuid7 (fun _ _ => True) {} draws :=
    everyStep_of_forall_mem (fun _ _ _ => trivial) _
  exact everyState_iff_everyStep sub kept broken returned every tracks_start

/-- A counter that runs over: the second call waits for the clock, which has stepped back. -/
def runningOver : List Draw :=
  [⟨1000, [], 0xFFFF, 7⟩, ⟨1000, [1000, 1000, 999], 0, 0⟩, ⟨1001, [], 3, 0⟩]

theorem running_over_ordered : EveryState newUuid7 Ordered {} runningOver := by
  obtain ⟨g, returned⟩ : ∃ g, exec newUuid7 {} runningOver = some g := ⟨_, rfl⟩
  exact (ordered_iff_advances runningOver g returned).mpr (by decide +kernel)

/-- **A millisecond that is entered again.** The clock shows 1000, 999 and 1000, and the counter
starts at 9 and later at 2: the third value has the timestamp of the first and is smaller. -/
theorem clock_steps_back :
    ¬ EveryState newUuid7 Ordered {} [⟨1000, [], 9, 0⟩, ⟨999, [], 5, 0⟩, ⟨1000, [], 2, 0⟩] := by
  decide +kernel

end PyCommon.Ids
