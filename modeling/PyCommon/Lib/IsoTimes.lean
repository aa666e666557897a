import Mathlib.Algebra.Group.Nat.Defs
import Mathlib.Data.Int.Notation
import PyCommon.Lib.CodePoints

/-!
# ISO 8601 dates and times

Dates and times of the Gregorian calendar as Python's `datetime` writes them with `isoformat`,
and as its `fromisoformat` reads them: the date as a day of a month or of a week, with dashes or
without, then any character, then the time with colons or without, as far as it is given, and
the offset from UTC. The hour 24 is the start of the next day.

What is written is read back, for dates (`readDate_isoformat`) and for times of a day with or
without an offset (`readDateTime_isoformat`). An offset has a precision of microseconds.
-/

set_option autoImplicit false

namespace IsoTimes

open CodePoints (Text code)

/-! ## Fields -/

/-- The last `width` decimal digits of a number. -/
def field : ℕ → ℕ → Text
  | 0, _ => []
  | width + 1, n => field width (n / 10) ++ [code '0' + n % 10]

def isDigit (c : ℕ) : Bool := code '0' ≤ c && c ≤ code '9'

/-- Append digits to a number. -/
def numberFrom (n : ℕ) : Text → Option ℕ
  | [] => some n
  | c :: rest => if isDigit c then numberFrom (n * 10 + (c - code '0')) rest else none

/-- Read a field of so many digits, and what follows it. -/
def readField (width : ℕ) (input : Text) : Option (ℕ × Text) :=
  if width ≤ input.length then
    (numberFrom 0 (input.take width)).map fun n => (n, input.drop width)
  else none

/-- Drop the separator, if the fields have separators. -/
def separated (separator : Option ℕ) (input : Text) : Option Text :=
  match separator with
  | none => some input
  | some c => if input.head? = some c then some (input.drop 1) else none

theorem length_field (width n : ℕ) : (field width n).length = width := by
  induction width generalizing n with
  | zero => rfl
  | succ width ih => rw [field, List.length_append, ih, List.length_singleton]

theorem isDigit_of_mem_field {width n c : ℕ} (member : c ∈ field width n) : isDigit c = true := by
  induction width generalizing n with
  | zero => cases member
  | succ width ih =>
      rcases List.mem_append.mp member with front | last
      · exact ih front
      · have small : n % 10 < 10 := Nat.mod_lt n (by decide)
        rw [List.mem_singleton.mp last, isDigit, Bool.and_eq_true, decide_eq_true_iff,
          decide_eq_true_iff]
        have nine : code '9' = code '0' + 9 := rfl
        omega

theorem numberFrom_append {n m : ℕ} {first later : Text} (read : numberFrom n first = some m) :
    numberFrom n (first ++ later) = numberFrom m later := by
  induction first generalizing n with
  | nil =>
      obtain rfl := Option.some.inj read
      rfl
  | cons c first ih =>
      rw [numberFrom] at read
      rw [List.cons_append, numberFrom]
      split at read
      · rename_i digit
        rw [if_pos digit]
        exact ih read
      · cases read

theorem numberFrom_field {width n : ℕ} (small : n < 10 ^ width) (start : ℕ) :
    numberFrom start (field width n) = some (start * 10 ^ width + n) := by
  induction width generalizing n with
  | zero =>
      have zero : n = 0 := by simpa using small
      rw [zero, field, numberFrom, Nat.pow_zero, Nat.mul_one, Nat.add_zero]
  | succ width ih =>
      have front : n / 10 < 10 ^ width := by
        rw [Nat.div_lt_iff_lt_mul (by decide), ← Nat.pow_succ]
        exact small
      have member : code '0' + n % 10 ∈ field 1 n := List.mem_singleton_self _
      have digit : isDigit (code '0' + n % 10) = true := isDigit_of_mem_field member
      rw [field, numberFrom_append (ih front), numberFrom, if_pos digit, numberFrom,
        Nat.add_sub_cancel_left, Nat.pow_succ]
      congr 1
      have parts := Nat.div_add_mod n 10
      rw [Nat.add_mul, Nat.mul_assoc]
      omega

/-- **A field is read back.** -/
theorem readField_field {width n : ℕ} (small : n < 10 ^ width) (rest : Text) :
    readField width (field width n ++ rest) = some (n, rest) := by
  have length := length_field width n
  have enough : width ≤ (field width n ++ rest).length := by
    rw [List.length_append, length]
    exact Nat.le_add_right _ _
  rw [readField, if_pos enough, List.take_left' length, List.drop_left' length,
    numberFrom_field small, Nat.zero_mul, Nat.zero_add, Option.map_some]

/-! ## Dates -/

def isLeap (year : ℕ) : Bool := year % 4 = 0 && (year % 100 ≠ 0 || year % 400 = 0)

def daysInMonth (year month : ℕ) : ℕ :=
  if month = 2 then if isLeap year then 29 else 28
  else if month = 4 ∨ month = 6 ∨ month = 9 ∨ month = 11 then 30
  else 31

/-- A day of the calendar. -/
structure Date where
  year : ℕ
  month : ℕ
  day : ℕ
  year_bounds : 1 ≤ year ∧ year ≤ 9999
  month_bounds : 1 ≤ month ∧ month ≤ 12
  day_bounds : 1 ≤ day ∧ day ≤ daysInMonth year month
  deriving DecidableEq

def dateOf (year month day : ℕ) : Option Date :=
  if valid : (1 ≤ year ∧ year ≤ 9999) ∧ (1 ≤ month ∧ month ≤ 12)
      ∧ 1 ≤ day ∧ day ≤ daysInMonth year month then
    some ⟨year, month, day, valid.1, valid.2.1, valid.2.2⟩
  else none

def Date.isoformat (date : Date) : Text :=
  field 4 date.year ++ code '-' :: (field 2 date.month ++ code '-' :: field 2 date.day)

/-- The day after a date, unless the calendar ends. -/
def Date.next (date : Date) : Option Date :=
  if date.day < daysInMonth date.year date.month then dateOf date.year date.month (date.day + 1)
  else if date.month < 12 then dateOf date.year (date.month + 1) 1
  else dateOf (date.year + 1) 1 1

/-- The weekday of the first of January, from zero for a Monday on. -/
def firstWeekday (year : ℕ) : ℕ :=
  (365 * (year - 1) + (year - 1) / 4 - (year - 1) / 100 + (year - 1) / 400) % 7

/-- The day that is so many days after the first of a month, in the months from it on. -/
def dayFrom (year : ℕ) : ℕ → ℕ → ℕ → Option Date
  | 0, _, days => dateOf (year + 1) 1 (days + 1)
  | left + 1, month, days =>
      if days < daysInMonth year month then dateOf year month (days + 1)
      else dayFrom year left (month + 1) (days - daysInMonth year month)

/-- The days of a week are counted from the Monday of the week with the first Thursday. -/
def weekDate (year week day : ℕ) : Option Date :=
  let first := firstWeekday year
  let long : Bool := first = 3 || (first = 2 && isLeap year)
  if (1 ≤ year ∧ year ≤ 9999) ∧ (1 ≤ week ∧ (week ≤ 52 ∨ week = 53 ∧ long)) ∧ 1 ≤ day ∧ day ≤ 7
  then
    let days := (week - 1) * 7 + (day - 1)
    if first ≤ 3 then
      if days < first then dateOf (year - 1) 12 (32 + days - first)
      else dayFrom year 12 1 (days - first)
    else dayFrom year 12 1 (days + 7 - first)
  else none

/-- `date.fromisoformat`. -/
def readDate (input : Text) : Option Date := do
  let dash := if input[4]? = some (code '-') then some (code '-') else none
  let (year, rest) ← readField 4 input
  let rest ← separated dash rest
  if rest.head? = some (code 'W') then
    let (week, rest) ← readField 2 (rest.drop 1)
    if rest = [] then weekDate year week 1
    else
      let rest ← separated dash rest
      let (day, rest) ← readField 1 rest
      if rest = [] then weekDate year week day else none
  else
    let (month, rest) ← readField 2 rest
    let rest ← separated dash rest
    let (day, rest) ← readField 2 rest
    if rest = [] then dateOf year month day else none

/-! ## Times -/

/-- The fields of a time of day or of an offset. -/
structure Clock where
  hour : ℕ
  minute : ℕ
  second : ℕ
  microsecond : ℕ
  deriving DecidableEq

/-- The fields are those of a time of day. -/
structure Clock.Valid (clock : Clock) : Prop where
  hour : clock.hour < 24
  minute : clock.minute < 60
  second : clock.second < 60
  microsecond : clock.microsecond < 1000000

def Clock.isValid (clock : Clock) : Bool :=
  clock.hour < 24 && clock.minute < 60 && clock.second < 60 && clock.microsecond < 1000000

def midnight : Clock := ⟨0, 0, 0, 0⟩

theorem midnight_valid : midnight.Valid := ⟨by decide, by decide, by decide, by decide⟩

/-- The microseconds since midnight. -/
def Clock.total (clock : Clock) : ℕ :=
  ((clock.hour * 60 + clock.minute) * 60 + clock.second) * 1000000 + clock.microsecond

/-- The clock so many microseconds after midnight. -/
def clockOf (total : ℕ) : Clock where
  hour := total / 3600000000
  minute := total / 60000000 % 60
  second := total / 1000000 % 60
  microsecond := total % 1000000

/-- An offset from UTC, less than a day. -/
abbrev Offset := {micros : ℤ // micros.natAbs < 86400000000}

/-- A time of day, with its offset from UTC if it has one. -/
structure DateTime where
  date : Date
  clock : Clock
  valid : clock.Valid
  offset : Option Offset

def fraction (microsecond : ℕ) : Text :=
  if microsecond = 0 then [] else code '.' :: field 6 microsecond

def Clock.isoformat (clock : Clock) : Text :=
  field 2 clock.hour ++ code ':' :: (field 2 clock.minute
    ++ code ':' :: (field 2 clock.second ++ fraction clock.microsecond))

/-- An offset is written without its seconds if these are zero. -/
def offsetText (micros : ℤ) : Text :=
  let clock := clockOf micros.natAbs
  (if micros < 0 then code '-' else code '+')
    :: if clock.second = 0 ∧ clock.microsecond = 0 then
        field 2 clock.hour ++ code ':' :: field 2 clock.minute
      else clock.isoformat

/-- `isoformat` with this character between date and time. -/
def DateTime.isoformat (separator : ℕ) (moment : DateTime) : Text :=
  moment.date.isoformat ++ separator :: (moment.clock.isoformat
    ++ match moment.offset with
      | none => []
      | some offset => offsetText offset.val)

/-- The microseconds of a decimal fraction, of which six digits count. -/
def readFraction : Text → Option ℕ
  | [] => some 0
  | mark :: digits =>
      if (mark = code '.' ∨ mark = code ',') ∧ digits ≠ [] ∧ digits.all isDigit then
        numberFrom 0 ((digits ++ List.replicate 5 (code '0')).take 6)
      else none

/-- Read the fields of a clock as far as they are given, with colons or without. -/
def readClock (input : Text) : Option Clock := do
  let (hour, rest) ← readField 2 input
  let colon := if rest.head? = some (code ':') then some (code ':') else none
  if rest = [] then return ⟨hour, 0, 0, 0⟩
  else
    let rest ← separated colon rest
    let (minute, rest) ← readField 2 rest
    if rest = [] then return ⟨hour, minute, 0, 0⟩
    else
      let rest ← separated colon rest
      let (second, rest) ← readField 2 rest
      let microsecond ← readFraction rest
      return ⟨hour, minute, second, microsecond⟩

def isMark (c : ℕ) : Bool := c = code '+' || c = code '-' || c = code 'Z'

/-- Read an offset after its mark. -/
def readOffset (mark : ℕ) (input : Text) : Option Offset := do
  if mark = code 'Z' then
    if input = [] then return ⟨0, by decide⟩ else none
  else
    let clock ← readClock input
    let micros : ℤ := if mark = code '-' then -clock.total else clock.total
    if small : clock.isValid = true ∧ micros.natAbs < 86400000000 then return ⟨micros, small.2⟩
    else none

/-- Where `datetime.fromisoformat` takes the date to end. -/
def separatorAt (input : Text) : ℕ :=
  if input.length = 7 then 7
  else if input[4]? = some (code '-') then
    if input[5]? = some (code 'W') then
      if input[8]? = some (code '-') then if (input[10]?).any isDigit then 8 else 10
      else 8
    else 10
  else if input[4]? = some (code 'W') then
    let stop := 7 + ((input.drop 7).takeWhile isDigit).length
    if stop < 9 then stop else if stop % 2 = 0 then 7 else 8
  else 8

/-- The time of day that a date and the fields of a clock stand for. -/
def momentOf (date : Date) (clock : Clock) (offset : Option Offset) : Option DateTime :=
  if clock = ⟨24, 0, 0, 0⟩ then
    date.next.map fun date => ⟨date, midnight, midnight_valid, offset⟩
  else if valid : clock.hour < 24 ∧ clock.minute < 60 ∧ clock.second < 60
      ∧ clock.microsecond < 1000000 then
    some ⟨date, clock, ⟨valid.1, valid.2.1, valid.2.2.1, valid.2.2.2⟩, offset⟩
  else none

/-- `datetime.fromisoformat`. -/
def readDateTime (input : Text) : Option DateTime := do
  if input.length < 7 then none
  else
    let date ← readDate (input.take (separatorAt input))
    let time := input.drop (separatorAt input + 1)
    if time = [] then momentOf date midnight none
    else
      let clock ← readClock (time.takeWhile fun c => !isMark c)
      match time.dropWhile fun c => !isMark c with
      | [] => momentOf date clock none
      | mark :: rest =>
          let offset ← readOffset mark rest
          momentOf date clock (some offset)

/-! ## Dates are read back -/

theorem dateOf_eq (date : Date) : dateOf date.year date.month date.day = some date := by
  rw [dateOf, dif_pos ⟨date.year_bounds, date.month_bounds, date.day_bounds⟩]

theorem Date.small (date : Date) :
    date.year < 10 ^ 4 ∧ date.month < 10 ^ 2 ∧ date.day < 10 ^ 2 := by
  obtain ⟨-, year⟩ := date.year_bounds
  obtain ⟨-, month⟩ := date.month_bounds
  obtain ⟨-, day⟩ := date.day_bounds
  have most : daysInMonth date.year date.month ≤ 31 := by
    unfold daysInMonth
    split
    · split <;> decide
    · split <;> decide
  omega

theorem ne_of_isDigit {c d : ℕ} (digit : isDigit c = true) (other : isDigit d = false) :
    c ≠ d := by
  rintro rfl
  rw [digit] at other
  cases other

theorem head?_field_append {width n : ℕ} (rest : Text) {d : ℕ} (other : isDigit d = false) :
    (field (width + 1) n ++ rest).head? ≠ some d := by
  have first : ∃ c later, field (width + 1) n = c :: later :=
    List.exists_cons_of_length_eq_add_one (length_field (width + 1) n)
  obtain ⟨c, later, split⟩ := first
  have digit : isDigit c = true := by
    apply isDigit_of_mem_field (n := n)
    rw [split]
    exact List.mem_cons_self
  rw [split, List.cons_append, List.head?_cons]
  intro same
  exact ne_of_isDigit digit other (Option.some.inj same)

theorem getElem?_field_append (width n : ℕ) (c : ℕ) (rest : Text) :
    (field width n ++ c :: rest)[width]? = some c := by
  rw [List.getElem?_append_right (Nat.le_of_eq (length_field width n)), length_field,
    Nat.sub_self, List.getElem?_cons_zero]

theorem separated_cons (c : ℕ) (rest : Text) : separated (some c) (c :: rest) = some rest := by
  rw [separated, List.head?_cons, if_pos rfl, List.drop_one, List.tail_cons]

/-- **A date is read back.** -/
theorem readDate_isoformat (date : Date) : readDate date.isoformat = some date := by
  obtain ⟨year, month, day⟩ := date.small
  have fourth : date.isoformat[4]? = some (code '-') := getElem?_field_append 4 _ _ _
  have noWeek : (field 2 date.month ++ code '-' :: field 2 date.day).head? ≠ some (code 'W') :=
    head?_field_append _ rfl
  have last : readField 2 (field 2 date.day) = some (date.day, []) := by
    rw [← List.append_nil (field 2 date.day)]
    exact readField_field day []
  rw [readDate, fourth, if_pos rfl, Date.isoformat, readField_field year]
  simp only [Option.bind_eq_bind, Option.bind_some, separated_cons, if_neg noWeek,
    readField_field month, last, if_true, dateOf_eq]

/-! ## Times are read back -/

theorem Clock.Valid.small {clock : Clock} (valid : clock.Valid) :
    clock.hour < 10 ^ 2 ∧ clock.minute < 10 ^ 2 ∧ clock.second < 10 ^ 2
      ∧ clock.microsecond < 10 ^ 6 := by
  obtain ⟨hour, minute, second, microsecond⟩ := valid
  omega

theorem readFraction_fraction {n : ℕ} (small : n < 10 ^ 6) :
    readFraction (fraction n) = some n := by
  unfold fraction
  split
  · rename_i zero
    rw [zero]
    rfl
  · have digits : (field 6 n).all isDigit = true :=
      List.all_eq_true.mpr fun c => isDigit_of_mem_field
    have nonempty : field 6 n ≠ [] := by
      intro empty
      have length := congrArg List.length empty
      rw [length_field] at length
      cases length
    rw [readFraction, if_pos ⟨Or.inl rfl, nonempty, digits⟩, List.take_left' (length_field 6 n),
      numberFrom_field small, Nat.zero_mul, Nat.zero_add]

/-- The fields of a clock are read back. -/
theorem readClock_isoformat {clock : Clock} (valid : clock.Valid) :
    readClock clock.isoformat = some clock := by
  obtain ⟨hour, minute, second, microsecond⟩ := valid.small
  have more : ∀ rest : Text, code ':' :: rest ≠ [] := fun rest => List.cons_ne_nil _ _
  rw [readClock, Clock.isoformat, readField_field hour]
  simp only [Option.bind_eq_bind, Option.bind_some, List.head?_cons, if_true, if_neg (more _),
    separated_cons, readField_field minute, readField_field second,
    readFraction_fraction microsecond]
  rfl

/-- So they are without seconds. -/
theorem readClock_minutes {hour minute : ℕ} (smallHour : hour < 10 ^ 2)
    (smallMinute : minute < 10 ^ 2) :
    readClock (field 2 hour ++ code ':' :: field 2 minute) = some ⟨hour, minute, 0, 0⟩ := by
  have last : readField 2 (field 2 minute) = some (minute, []) := by
    rw [← List.append_nil (field 2 minute)]
    exact readField_field smallMinute []
  have more : ∀ rest : Text, code ':' :: rest ≠ [] := fun rest => List.cons_ne_nil _ _
  rw [readClock, readField_field smallHour]
  simp only [Option.bind_eq_bind, Option.bind_some, List.head?_cons, if_true, if_neg (more _),
    separated_cons, last]
  rfl

theorem Clock.eq_of_zero {clock : Clock} (second : clock.second = 0)
    (microsecond : clock.microsecond = 0) : ⟨clock.hour, clock.minute, 0, 0⟩ = clock := by
  obtain ⟨hour, minute, seconds, microseconds⟩ := clock
  obtain rfl : seconds = 0 := second
  obtain rfl : microseconds = 0 := microsecond
  rfl

theorem total_clockOf (total : ℕ) : (clockOf total).total = total := by
  simp only [clockOf, Clock.total]
  omega

theorem clockOf_valid {total : ℕ} (small : total < 86400000000) : (clockOf total).Valid := by
  refine ⟨?_, ?_, ?_, ?_⟩
  · show total / 3600000000 < 24
    omega
  · exact Nat.mod_lt _ (by decide)
  · exact Nat.mod_lt _ (by decide)
  · exact Nat.mod_lt _ (by decide)

theorem Clock.Valid.isValid {clock : Clock} (valid : clock.Valid) : clock.isValid = true := by
  obtain ⟨hour, minute, second, microsecond⟩ := valid
  simp [Clock.isValid, hour, minute, second, microsecond]

/-- **An offset is read back.** -/
theorem offset_read (offset : Offset) : ∃ mark rest, offsetText offset.val = mark :: rest
    ∧ isMark mark = true ∧ readOffset mark rest = some offset := by
  obtain ⟨micros, small⟩ := offset
  have valid : (clockOf micros.natAbs).Valid := clockOf_valid small
  have total : (clockOf micros.natAbs).total = micros.natAbs := total_clockOf micros.natAbs
  have read : readClock (if (clockOf micros.natAbs).second = 0
        ∧ (clockOf micros.natAbs).microsecond = 0 then
        field 2 (clockOf micros.natAbs).hour ++ code ':' :: field 2 (clockOf micros.natAbs).minute
      else (clockOf micros.natAbs).isoformat) = some (clockOf micros.natAbs) := by
    split
    · rename_i zero
      obtain ⟨hour, minute, -, -⟩ := valid.small
      rw [readClock_minutes hour minute, Clock.eq_of_zero zero.1 zero.2]
    · exact readClock_isoformat valid
  refine ⟨_, _, rfl, ?_, ?_⟩
  · split <;> rfl
  · by_cases negative : micros < 0
    · have sign : (-(micros.natAbs : ℤ)) = micros := by omega
      have sized : (clockOf micros.natAbs).isValid = true ∧ (micros.natAbs : ℕ) < 86400000000 :=
        ⟨valid.isValid, small⟩
      have mark : ¬ code '-' = code 'Z' := by decide
      simp only [if_pos negative, readOffset, if_neg mark, read, total, Option.bind_eq_bind,
        Option.bind_some, if_true, sign, dif_pos sized]
      rfl
    · have sign : ((micros.natAbs : ℕ) : ℤ) = micros := by omega
      have sized : (clockOf micros.natAbs).isValid = true ∧ (micros.natAbs : ℕ) < 86400000000 :=
        ⟨valid.isValid, small⟩
      have mark : ¬ code '+' = code 'Z' := by decide
      have plus : ¬ code '+' = code '-' := by decide
      simp only [if_neg negative, readOffset, if_neg mark, read, total, Option.bind_eq_bind,
        Option.bind_some, if_neg plus, sign, dif_pos sized]
      rfl

theorem isMark_of_mem_isoformat {clock : Clock} {c : ℕ} (member : c ∈ clock.isoformat) :
    isMark c = false := by
  have digits : ∀ {width n c : ℕ}, c ∈ field width n → isMark c = false := by
    intro width n c member
    have digit := isDigit_of_mem_field member
    have plus := ne_of_isDigit digit (show isDigit (code '+') = false from rfl)
    have minus := ne_of_isDigit digit (show isDigit (code '-') = false from rfl)
    have zulu := ne_of_isDigit digit (show isDigit (code 'Z') = false from rfl)
    simp [isMark, plus, minus, zulu]
  simp only [Clock.isoformat, List.mem_append, List.mem_cons] at member
  rcases member with hour | rfl | minute | rfl | second | part
  · exact digits hour
  · rfl
  · exact digits minute
  · rfl
  · exact digits second
  · unfold fraction at part
    split at part
    · cases part
    · rcases List.mem_cons.mp part with rfl | microsecond
      · rfl
      · exact digits microsecond

theorem length_isoformat (date : Date) : date.isoformat.length = 10 := by
  simp only [Date.isoformat, List.length_append, List.length_cons, length_field]

theorem separatorAt_isoformat (date : Date) (rest : Text) :
    separatorAt (date.isoformat ++ rest) = 10 := by
  have length : ¬ (date.isoformat ++ rest).length = 7 := by
    rw [List.length_append, length_isoformat]
    omega
  have split : date.isoformat ++ rest = field 4 date.year ++ code '-' :: (field 2 date.month
      ++ code '-' :: (field 2 date.day ++ rest)) := by
    simp only [Date.isoformat, List.append_assoc, List.cons_append]
  have dash : (date.isoformat ++ rest)[4]? = some (code '-') := by
    rw [split]
    exact getElem?_field_append 4 _ _ _
  have month : ¬ (date.isoformat ++ rest)[5]? = some (code 'W') := by
    rw [split, List.getElem?_append_right (by rw [length_field]; decide), length_field,
      List.getElem?_cons_succ, ← List.head?_eq_getElem?]
    exact head?_field_append _ rfl
  rw [separatorAt, if_neg length, if_pos dash, if_neg month]

theorem momentOf_eq (moment : DateTime) :
    momentOf moment.date moment.clock moment.offset = some moment := by
  obtain ⟨date, clock, valid, offset⟩ := moment
  have today : ¬ clock = ⟨24, 0, 0, 0⟩ := by
    rintro rfl
    exact absurd valid.hour (by decide)
  rw [momentOf, if_neg today,
    dif_pos ⟨valid.hour, valid.minute, valid.second, valid.microsecond⟩]

/-- **A time of day on a date is read back**, with its offset if it has one, and whatever stands
between date and time. -/
theorem readDateTime_isoformat (separator : ℕ) (moment : DateTime) :
    readDateTime (moment.isoformat separator) = some moment := by
  obtain ⟨zone, shape, found⟩ : ∃ zone, moment.isoformat separator
      = moment.date.isoformat ++ separator :: (moment.clock.isoformat ++ zone)
      ∧ (zone = [] ∧ moment.offset = none ∨ ∃ mark rest offset, zone = mark :: rest
        ∧ isMark mark = true ∧ readOffset mark rest = some offset
        ∧ moment.offset = some offset) := by
    refine ⟨_, rfl, ?_⟩
    cases given : moment.offset with
    | none => exact Or.inl ⟨rfl, rfl⟩
    | some offset =>
        obtain ⟨mark, rest, written, marked, read⟩ := offset_read offset
        exact Or.inr ⟨mark, rest, offset, written, marked, read, rfl⟩
  have length := length_isoformat moment.date
  have whole : ¬ (moment.isoformat separator).length < 7 := by
    rw [shape, List.length_append, length]
    omega
  have front : (moment.isoformat separator).take 10 = moment.date.isoformat := by
    rw [shape, List.take_left' length]
  have back : (moment.isoformat separator).drop (10 + 1) = moment.clock.isoformat ++ zone := by
    rw [shape, ← List.drop_drop, List.drop_left' length]
    rfl
  have unmarked : ∀ c ∈ moment.clock.isoformat, (!isMark c) = true := by
    intro c member
    rw [isMark_of_mem_isoformat member]
    rfl
  have ends : zone.takeWhile (fun c => !isMark c) = []
      ∧ zone.dropWhile (fun c => !isMark c) = zone := by
    rcases found with ⟨rfl, -⟩ | ⟨mark, rest, offset, rfl, marked, -, -⟩
    · exact ⟨rfl, rfl⟩
    · simp [marked]
  have clock : (moment.clock.isoformat ++ zone).takeWhile (fun c => !isMark c)
      = moment.clock.isoformat := by
    rw [List.takeWhile_append_of_pos unmarked, ends.1, List.append_nil]
  have after : (moment.clock.isoformat ++ zone).dropWhile (fun c => !isMark c) = zone := by
    rw [List.dropWhile_append_of_pos unmarked, ends.2]
  have timed : ¬ moment.clock.isoformat ++ zone = [] := by
    intro empty
    have hour := congrArg List.length empty
    rw [Clock.isoformat, List.append_assoc, List.length_append, length_field] at hour
    simp at hour
  have at_ : separatorAt (moment.isoformat separator) = 10 := by
    rw [shape]
    exact separatorAt_isoformat moment.date _
  rw [readDateTime, if_neg whole, at_, front, back, readDate_isoformat]
  simp only [Option.bind_eq_bind, Option.bind_some, if_neg timed, clock, after,
    readClock_isoformat moment.valid]
  rcases found with ⟨rfl, absent⟩ | ⟨mark, rest, offset, rfl, -, read, present⟩
  · rw [← absent]
    exact momentOf_eq moment
  · simp only [read, Option.bind_some]
    rw [← present]
    exact momentOf_eq moment

/-! ## What is written is ASCII -/

theorem ascii_of_mem_field {width n c : ℕ} (member : c ∈ field width n) : c < 0x80 := by
  have digit := isDigit_of_mem_field member
  rw [isDigit, Bool.and_eq_true, decide_eq_true_iff, decide_eq_true_iff] at digit
  exact Nat.lt_of_le_of_lt digit.2 (by decide)

theorem Date.isoformat_ascii (date : Date) : ∀ c ∈ date.isoformat, c < 0x80 := by
  intro c member
  simp only [Date.isoformat, List.mem_append, List.mem_cons] at member
  rcases member with year | rfl | month | rfl | day
  · exact ascii_of_mem_field year
  · decide
  · exact ascii_of_mem_field month
  · decide
  · exact ascii_of_mem_field day

theorem Clock.isoformat_ascii (clock : Clock) : ∀ c ∈ clock.isoformat, c < 0x80 := by
  intro c member
  simp only [Clock.isoformat, List.mem_append, List.mem_cons] at member
  rcases member with hour | rfl | minute | rfl | second | part
  · exact ascii_of_mem_field hour
  · decide
  · exact ascii_of_mem_field minute
  · decide
  · exact ascii_of_mem_field second
  · unfold fraction at part
    split at part
    · cases part
    · rcases List.mem_cons.mp part with rfl | microsecond
      · decide
      · exact ascii_of_mem_field microsecond

theorem offsetText_ascii (micros : ℤ) : ∀ c ∈ offsetText micros, c < 0x80 := by
  intro c member
  rw [offsetText, List.mem_cons] at member
  rcases member with rfl | member
  · split <;> decide
  · split at member
    · simp only [List.mem_append, List.mem_cons] at member
      rcases member with hour | rfl | minute
      · exact ascii_of_mem_field hour
      · decide
      · exact ascii_of_mem_field minute
    · exact Clock.isoformat_ascii _ c member

theorem DateTime.isoformat_ascii {separator : ℕ} (ascii : separator < 0x80) (moment : DateTime) :
    ∀ c ∈ moment.isoformat separator, c < 0x80 := by
  intro c member
  rw [DateTime.isoformat, List.mem_append, List.mem_cons, List.mem_append] at member
  rcases member with date | rfl | clock | zone
  · exact moment.date.isoformat_ascii c date
  · exact ascii
  · exact moment.clock.isoformat_ascii c clock
  · split at zone
    · cases zone
    · exact offsetText_ascii _ c zone

end IsoTimes
