import PyCommon.Cache.FactoryRuns

/-!
# Concurrent misses

Any number of calls of `get_or_set` on one key share an entry and a lock. Redis
executes a command when it likes and its reply arrives when it likes; the lock is
given to one call at a time and is taken back only by its holder. Nothing else
touches the entry, and nothing expires.

Two history variables record what no code reads: whether a call has run its factory,
and the values the factories returned.

As long as no factory raises a `LockAcquireError`, the factory only ever runs under
the lock, so no two run at once; the first that succeeds fills the entry before the
lock is passed on, so no other succeeds; and every call that did not run its own
returns what the entry decodes to (`stampede_collapses`). A factory that does raise
one is run again after the lock has been released, beside that of the next holder
(`two_factories_at_once`).
-/

set_option autoImplicit false

namespace PyCommon.CacheAside

open StepSystem

variable {Value : Type} (cache : Cache Value) (key : String) (decodeResponses : Bool)

/-! ## The system -/

structure Proc (Value : Type) where
  task : Task Value
  reply : Option (Answer Value) := none
  ranFactory : Bool := false

structure Sys (Value : Type) where
  entry : Option Bytes
  holder : Option ℕ := none
  successes : List Value := []
  calls : ℕ → Option (Proc Value) := fun _ => none

inductive Label (Value : Type) where
  | arrive (id : ℕ) (ttlSeconds : Option ℚ)
  | redis (id : ℕ)
  | resume (id : ℕ)
  | factory (id : ℕ) (result : Except Exc Value)

/-- What the client returns for the entry. -/
def readReply : Option Bytes → Except Exc (Option Raw)
  | none => .ok none
  | some stored => (Client.read ⟨decodeResponses⟩ stored).map some

/-- Redis executes the command a call awaits: the reply, the entry and the holder of
the lock after it. The lock is not acquired while another call holds it. -/
def Task.serve (id : ℕ) (entry : Option Bytes) (holder : Option ℕ) :
    Task Value → Option (Answer Value × Option Bytes × Option ℕ)
  | .get _ _ => some (.got (readReply decodeResponses entry), entry, holder)
  | .set _ raw _ _ => some (.stored (.ok ()), some (encode raw), holder)
  | .acquire _ _ _ _ =>
      match holder with
      | none => some (.acquired (.ok true), entry, some id)
      | some _ => none
  | .release _ _ =>
      if holder = some id then some (.released (.ok ()), entry, none)
      else some (.released (.error { number := 0, isRedisError := true }), entry, holder)
  | _ => none

def Sys.put (s : Sys Value) (id : ℕ) (p : Proc Value) : Sys Value :=
  { s with calls := Function.update s.calls id (some p) }

def Sys.step (s : Sys Value) : Label Value → Option (Sys Value)
  | .arrive id ttlSeconds =>
      match s.calls id with
      | none => some (s.put id { task := cache.getOrSet key ttlSeconds })
      | some _ => none
  | .redis id => (s.calls id).bind fun p =>
      match p.reply with
      | some _ => none
      | none => (p.task.serve decodeResponses id s.entry s.holder).map
          fun (answer, entry, holder) =>
            { s.put id { p with reply := some answer } with entry, holder }
  | .resume id => (s.calls id).bind fun p =>
      p.reply.bind fun answer => (p.task.step answer).map
        fun task => s.put id { p with task, reply := none }
  | .factory id result => (s.calls id).bind fun p =>
      (p.task.step (.made result)).map fun task =>
        { s.put id { p with task, ranFactory := true } with
          successes := s.successes ++ result.toOption.toList }

/-- The serializer accepts the value and reads back what it wrote. -/
def Serializable (value : Value) : Prop :=
  ∃ raw loaded, cache.serializer.dumps value = .ok raw ∧ cache.serializer.loads raw = .ok loaded

/-- At most one factory runs, at most one has succeeded, and once one has, every call
that is over and did not run its own returned the decoding of the value stored. -/
structure Collapsed (s : Sys Value) : Prop where
  alone : ∀ first second p q, s.calls first = some p → s.calls second = some q →
    p.task.computing → q.task.computing → first = second
  once : s.successes.length ≤ 1
  shared : ∀ value ∈ s.successes, ∀ id p result, s.calls id = some p → p.ranFactory = false →
    p.task.result = some result → ∃ raw loaded, cache.serializer.dumps value = .ok raw ∧
      cache.serializer.loads raw = .ok loaded ∧ result = .ok loaded

/-! ## The invariant -/

variable {cache key decodeResponses}

variable (cache decodeResponses) in
/-- What a lookup makes of the entry as it is. -/
def Sys.sees (s : Sys Value) : Except Exc (Option Value) :=
  cache.looked (readReply decodeResponses s.entry)

/-- The call holds the lock. -/
def Phase.inside : Phase Value → Option (Answer Value) → Bool
  | .acquiring, reply => reply.isSome
  | .rechecking, _ => true
  | .computing held, _ => held
  | .storing held _ _, _ => held
  | .releasing _, reply => reply.isNone
  | _, _ => false

variable (cache decodeResponses) in
/-- What is known of a call at a phase. A lookup under way has seen the entry as it is
or missed it; the holder knows that the entry is a miss from its recheck on, until it
stores; a result not of the call's own making is what the entry decodes to. -/
def Knows (s : Sys Value) (ranFactory : Bool) :
    Phase Value → Option (Answer Value) → Prop
  | .lookingUp, none => ranFactory = false
  | .lookingUp, some (.got reply) =>
      ranFactory = false ∧
        (cache.looked reply = .ok none ∨ cache.looked reply = s.sees cache decodeResponses)
  | .acquiring, none => ranFactory = false
  | .acquiring, some (.acquired (.ok true)) => ranFactory = false
  | .rechecking, none => ranFactory = false
  | .rechecking, some (.got reply) =>
      ranFactory = false ∧ cache.looked reply = s.sees cache decodeResponses
  | .computing held, none =>
      held = true ∧ ranFactory = false ∧ s.sees cache decodeResponses = .ok none ∧
        s.successes = []
  | .storing held value raw, none =>
      held = true ∧ ranFactory = true ∧ s.sees cache decodeResponses = .ok none ∧
        s.successes = [value] ∧ cache.serializer.dumps value = .ok raw
  | .storing held _ _, some (.stored (.ok ())) => held = true ∧ ranFactory = true
  | .releasing result, none =>
      (ranFactory = false → s.sees cache decodeResponses = result.map some) ∧
        ∀ e, result = .error e → ¬ e.isLockAcquireError
  | .releasing result, some (.released (.ok ())) =>
      (ranFactory = false → s.sees cache decodeResponses = result.map some) ∧
        ∀ e, result = .error e → ¬ e.isLockAcquireError
  | .ended result, none =>
      ranFactory = false → s.sees cache decodeResponses = result.map some
  | _, _ => False

variable (cache key decodeResponses) in
/-- A call stands at a phase: it holds the lock exactly if the phase says so. -/
structure Stands (s : Sys Value) (id : ℕ) (p : Proc Value) (phase : Phase Value) : Prop where
  task : ∃ ttlSeconds, p.task = cache.task key ttlSeconds phase
  holds : s.holder = some id ↔ phase.inside p.reply
  knows : Knows cache decodeResponses s p.ranFactory phase p.reply

/-- The call has a `SET` under way that Redis has not executed. -/
def Proc.writes (p : Proc Value) : Prop :=
  (∃ key raw px k, p.task = .set key raw px k) ∧ p.reply = none

variable (cache decodeResponses) in
/-- No factory has succeeded; or one has, and its value is in the entry, or about to be
written there by the holder of the lock. -/
inductive Progress (s : Sys Value) : Prop where
  | fresh (empty : s.successes = [])
  | written (value : Value) (raw : String) (loaded : Value) (one : s.successes = [value])
      (dumped : cache.serializer.dumps value = .ok raw)
      (loads : cache.serializer.loads raw = .ok loaded)
      (stored : s.entry = some (encode raw) ∨
        s.sees cache decodeResponses = .ok none ∧
          ∃ id p, s.holder = some id ∧ s.calls id = some p ∧ p.writes)

variable (cache key decodeResponses) in
structure Guarded (s : Sys Value) : Prop where
  progress : Progress cache decodeResponses s
  present : ∀ id, s.holder = some id → ∃ p, s.calls id = some p
  stands : ∀ id p, s.calls id = some p → ∃ phase, Stands cache key decodeResponses s id p phase

/-! ### What others know -/

theorem map_some_ne_miss (result : Except Exc Value) : result.map some ≠ .ok none := by
  cases result with
  | error e => exact nofun
  | ok value => exact nofun

theorem knows_congr {s t : Sys Value}
    (sees : t.sees cache decodeResponses = s.sees cache decodeResponses)
    (successes : t.successes = s.successes) :
    Knows cache decodeResponses t = Knows cache decodeResponses s := by
  funext ranFactory phase reply
  unfold Knows
  rw [sees, successes]

/-- A call outside the lock still knows what it knew when the holder fills an entry
that was a miss. -/
theorem Knows.outside {s t : Sys Value} {ranFactory : Bool} {phase : Phase Value}
    {reply : Option (Answer Value)} (knows : Knows cache decodeResponses s ranFactory phase reply)
    (outside : phase.inside reply = false) (missed : s.sees cache decodeResponses = .ok none) :
    Knows cache decodeResponses t ranFactory phase reply := by
  have own : ∀ result : Except Exc Value,
      (ranFactory = false → s.sees cache decodeResponses = result.map some) →
        ranFactory = true := by
    intro result seen
    by_contra foreign
    have found := seen (by simpa using foreign)
    exact map_some_ne_miss result (found.symm.trans missed)
  cases phase with
  | lookingUp =>
      rcases reply with _ | answer
      · exact knows
      · cases answer with
        | got reply =>
            refine ⟨knows.1, .inl ?_⟩
            rcases knows.2 with miss | seen
            · exact miss
            · exact seen.trans missed
        | _ => cases knows
  | acquiring =>
      rcases reply with _ | answer
      · exact knows
      · cases outside
  | rechecking => cases outside
  | computing held =>
      rcases reply with _ | answer
      · exact absurd knows.1 (by simpa [Phase.inside] using outside)
      · cases knows
  | storing held value raw =>
      have holding : held = true := by
        rcases reply with _ | answer
        · exact knows.1
        · cases answer with
          | stored reply =>
              rcases reply with e | _
              · cases knows
              · exact knows.1
          | _ => cases knows
      exact absurd holding (by simpa [Phase.inside] using outside)
  | releasing result =>
      rcases reply with _ | answer
      · cases outside
      · cases answer with
        | released reply =>
            rcases reply with e | _
            · cases knows
            · have ran := own result knows.1
              exact ⟨fun foreign => by simp [ran] at foreign, knows.2⟩
        | _ => cases knows
  | ended result =>
      rcases reply with _ | answer
      · have ran := own result knows
        exact fun foreign => by simp [ran] at foreign
      · cases knows

/-- A step of another call leaves a call where it stands, unless it changes the entry or
the successes under the call's own lock. -/
theorem Stands.frame {s t : Sys Value} {id : ℕ} {p : Proc Value} {phase : Phase Value}
    (stands : Stands cache key decodeResponses s id p phase)
    (holder : t.holder = some id ↔ s.holder = some id)
    (kept : t.sees cache decodeResponses = s.sees cache decodeResponses ∧
        t.successes = s.successes ∨
      s.sees cache decodeResponses = .ok none ∧ s.holder ≠ some id) :
    Stands cache key decodeResponses t id p phase := by
  refine ⟨stands.task, holder.trans stands.holds, ?_⟩
  rcases kept with ⟨sees, successes⟩ | ⟨missed, other⟩
  · rw [knows_congr sees successes]
    exact stands.knows
  · have outside : phase.inside p.reply = false := by
      by_contra inside
      exact other (stands.holds.mpr (by simpa using inside))
    exact stands.knows.outside outside missed

theorem Progress.frame {s t : Sys Value} (progress : Progress cache decodeResponses s)
    (entry : t.entry = s.entry) (successes : t.successes = s.successes)
    (writers : ∀ id p, s.holder = some id → s.calls id = some p → p.writes →
      t.holder = some id ∧ t.calls id = some p) : Progress cache decodeResponses t := by
  cases progress with
  | fresh empty => exact .fresh (successes.trans empty)
  | written value raw loaded one dumped loads stored =>
      refine .written value raw loaded (successes.trans one) dumped loads ?_
      rcases stored with there | ⟨missed, id, p, holder, call, writes⟩
      · exact .inl (entry.trans there)
      · obtain ⟨holder', call'⟩ := writers id p holder call writes
        refine .inr ⟨?_, id, p, holder', call', writes⟩
        rw [Sys.sees, entry]
        exact missed

/-- One call moves, and the others stand where they stood. -/
theorem Guarded.move {s t : Sys Value} {id : ℕ} {p : Proc Value}
    (guarded : Guarded cache key decodeResponses s)
    (calls : t.calls = Function.update s.calls id (some p))
    (mover : ∃ phase, Stands cache key decodeResponses t id p phase)
    (holder : ∀ other, other ≠ id → (t.holder = some other ↔ s.holder = some other))
    (kept : t.sees cache decodeResponses = s.sees cache decodeResponses ∧
        t.successes = s.successes ∨
      s.sees cache decodeResponses = .ok none ∧ s.holder = some id)
    (progress : Progress cache decodeResponses t) : Guarded cache key decodeResponses t := by
  refine ⟨progress, fun other holds => ?_, fun other q there => ?_⟩
  · by_cases same : other = id
    · subst same
      exact ⟨p, by rw [calls, Function.update_self]⟩
    · obtain ⟨q, there⟩ := guarded.present other ((holder other same).mp holds)
      exact ⟨q, by rw [calls, Function.update_of_ne same, there]⟩
  · by_cases same : other = id
    · subst same
      rw [calls, Function.update_self] at there
      obtain rfl := Option.some.inj there
      exact mover
    · rw [calls, Function.update_of_ne same] at there
      obtain ⟨phase, stands⟩ := guarded.stands other q there
      refine ⟨phase, stands.frame (holder other same) (kept.imp_right fun missed => ?_)⟩
      refine ⟨missed.1, fun also => same ?_⟩
      exact Option.some.inj (also.symm.trans missed.2)

/-- A move that touches neither the entry nor the lock nor the successes, of a call
that has no `SET` under way. -/
theorem Guarded.quietMove {s t : Sys Value} {id : ℕ} {p : Proc Value}
    (guarded : Guarded cache key decodeResponses s)
    (calls : t.calls = Function.update s.calls id (some p))
    (mover : ∃ phase, Stands cache key decodeResponses t id p phase)
    (holder : t.holder = s.holder) (entry : t.entry = s.entry)
    (successes : t.successes = s.successes)
    (idle : ∀ q, s.calls id = some q → ¬ q.writes) : Guarded cache key decodeResponses t := by
  refine guarded.move calls mover (fun other _ => by rw [holder])
    (.inl ⟨by rw [Sys.sees, Sys.sees, entry], successes⟩) ?_
  refine guarded.progress.frame entry successes fun other q holds there writes => ?_
  have different : other ≠ id := by
    rintro rfl
    exact idle q there writes
  exact ⟨holder.trans holds, by rw [calls, Function.update_of_ne different, there]⟩

/-- A call takes the lock, which nobody holds. -/
theorem Guarded.take {s t : Sys Value} {id : ℕ} {p : Proc Value}
    (guarded : Guarded cache key decodeResponses s)
    (calls : t.calls = Function.update s.calls id (some p))
    (mover : ∃ phase, Stands cache key decodeResponses t id p phase)
    (free : s.holder = none) (taken : t.holder = some id) (entry : t.entry = s.entry)
    (successes : t.successes = s.successes) : Guarded cache key decodeResponses t := by
  refine guarded.move calls mover ?_ (.inl ⟨by rw [Sys.sees, Sys.sees, entry], successes⟩) ?_
  · intro other different
    rw [free, taken]
    exact ⟨fun same => absurd (Option.some.inj same).symm different, nofun⟩
  · refine guarded.progress.frame entry successes fun other q holder _ _ => ?_
    rw [free] at holder
    cases holder

/-- The holder, which has no `SET` under way, gives the lock up. -/
theorem Guarded.giveUp {s t : Sys Value} {id : ℕ} {p : Proc Value}
    (guarded : Guarded cache key decodeResponses s)
    (calls : t.calls = Function.update s.calls id (some p))
    (mover : ∃ phase, Stands cache key decodeResponses t id p phase)
    (own : s.holder = some id) (free : t.holder = none) (entry : t.entry = s.entry)
    (successes : t.successes = s.successes)
    (idle : ∀ q, s.calls id = some q → ¬ q.writes) : Guarded cache key decodeResponses t := by
  refine guarded.move calls mover ?_ (.inl ⟨by rw [Sys.sees, Sys.sees, entry], successes⟩) ?_
  · intro other different
    rw [own, free]
    exact ⟨nofun, fun same => absurd (Option.some.inj same).symm different⟩
  · refine guarded.progress.frame entry successes fun other q holder call writes => ?_
    obtain rfl := Option.some.inj (holder.symm.trans own)
    exact absurd writes (idle q call)

/-- The one value is in the entry once its `SET` is executed. -/
theorem Progress.written_of_set {s t : Sys Value} {value : Value} {raw : String}
    (progress : Progress cache decodeResponses s) (one : s.successes = [value])
    (dumped : cache.serializer.dumps value = .ok raw) (entry : t.entry = some (encode raw))
    (successes : t.successes = s.successes) : Progress cache decodeResponses t := by
  cases progress with
  | fresh empty =>
      rw [one] at empty
      cases empty
  | written value' raw' loaded one' dumped' loads =>
      obtain rfl : value = value' := by simpa using one.symm.trans one'
      obtain rfl : raw = raw' := Except.ok.inj (dumped.symm.trans dumped')
      exact .written value raw loaded (successes.trans one) dumped loads (.inl entry)

/-! ### The steps -/

theorem answer_inj {answer answer' : Answer Value} {entry entry' : Option Bytes}
    {holder holder' : Option ℕ}
    (same : some (answer, entry, holder) = some (answer', entry', holder')) :
    answer = answer' ∧ entry = entry' ∧ holder = holder' := by
  obtain ⟨first, rest⟩ := Prod.mk.inj (Option.some.inj same)
  exact ⟨first, Prod.mk.inj rest⟩

/-- Only a call that stores its value has a `SET` under way. -/
theorem not_writes_of_task {p : Proc Value} {phase : Phase Value} {ttlSeconds : Option ℚ}
    (task : p.task = cache.task key ttlSeconds phase)
    (other : ∀ held value raw, phase ≠ .storing held value raw) : ¬ p.writes := by
  rintro ⟨⟨key, raw, px, k, set⟩, -⟩
  rw [task] at set
  cases phase with
  | storing held value raw => exact other held value raw rfl
  | _ => cases set

theorem guarded_arrive {s next : Sys Value} {id : ℕ} {ttlSeconds : Option ℚ}
    (guarded : Guarded cache key decodeResponses s)
    (taken : s.step cache key decodeResponses (.arrive id ttlSeconds) = some next) :
    Guarded cache key decodeResponses next := by
  simp only [Sys.step] at taken
  split at taken
  · rename_i vacant
    obtain rfl := Option.some.inj taken
    refine guarded.quietMove rfl ⟨.lookingUp, ⟨ttlSeconds, rfl⟩, ?_, rfl⟩ rfl rfl rfl ?_
    · refine ⟨fun holds => ?_, fun inside => by cases inside⟩
      obtain ⟨p, there⟩ := guarded.present id holds
      cases vacant.symm.trans there
    · intro q there
      cases vacant.symm.trans there
  · cases taken

/-- Redis executes a command: what it replies is known to the call, and only a `SET`
changes the entry. -/
theorem guarded_redis {s next : Sys Value} {id : ℕ}
    (guarded : Guarded cache key decodeResponses s)
    (taken : s.step cache key decodeResponses (.redis id) = some next) :
    Guarded cache key decodeResponses next := by
  obtain ⟨p, there, moved⟩ := Option.bind_eq_some_iff.mp taken
  obtain ⟨phase, ⟨ttlSeconds, task⟩, holds, knows⟩ := guarded.stands id p there
  cases pending : p.reply with
  | some answer =>
      rw [pending] at moved
      cases moved
  | none =>
      rw [pending] at moved holds knows
      obtain ⟨⟨answer, entry, holder⟩, served, rfl⟩ := Option.map_eq_some_iff.mp moved
      rw [task] at served
      have idle : (∀ held value raw, phase ≠ .storing held value raw) →
          ∀ q, s.calls id = some q → ¬ q.writes := by
        intro other q also
        obtain rfl := Option.some.inj (also.symm.trans there)
        exact not_writes_of_task task other
      cases phase with
      | lookingUp =>
          obtain ⟨rfl, rfl, rfl⟩ := answer_inj served
          exact guarded.quietMove rfl
            ⟨.lookingUp, ⟨ttlSeconds, task⟩, holds, knows, .inr rfl⟩ rfl rfl rfl
            (idle fun _ _ _ same => by cases same)
      | acquiring =>
          cases free : s.holder with
          | some other =>
              rw [free] at served
              cases served
          | none =>
              rw [free] at served
              obtain ⟨rfl, rfl, rfl⟩ := answer_inj served
              have holding : some id = some id ↔ true = true := iff_of_true rfl rfl
              exact guarded.take rfl ⟨.acquiring, ⟨ttlSeconds, task⟩, holding, knows⟩ free rfl
                rfl rfl
      | rechecking =>
          obtain ⟨rfl, rfl, rfl⟩ := answer_inj served
          exact guarded.quietMove rfl
            ⟨.rechecking, ⟨ttlSeconds, task⟩, holds, knows, rfl⟩ rfl rfl rfl
            (idle fun _ _ _ same => by cases same)
      | computing held => cases served
      | storing held value raw =>
          obtain ⟨rfl, rfl, rfl⟩ := answer_inj served
          obtain ⟨rfl, ran, missed, one, dumped⟩ := knows
          have own : s.holder = some id := holds.mpr rfl
          exact guarded.move rfl ⟨.storing true value raw, ⟨ttlSeconds, task⟩, holds, rfl, ran⟩
            (fun _ _ => Iff.rfl) (.inr ⟨missed, own⟩)
            (guarded.progress.written_of_set one dumped rfl rfl)
      | releasing result =>
          have own : s.holder = some id := holds.mpr rfl
          have served : some (Answer.released (.ok ()), s.entry, none) =
              some (answer, entry, holder) := by
            rw [← served]
            exact (if_pos own).symm
          obtain ⟨rfl, rfl, rfl⟩ := answer_inj served
          have gone : (none : Option ℕ) = some id ↔ false = true := ⟨nofun, nofun⟩
          exact guarded.giveUp rfl ⟨.releasing result, ⟨ttlSeconds, task⟩, gone, knows⟩ own rfl
            rfl rfl (idle fun _ _ _ same => by cases same)
      | ended result => cases served

theorem sees_of_stored {s : Sys Value} {raw : String} {loaded : Value}
    (entry : s.entry = some (encode raw)) (loads : cache.serializer.loads raw = .ok loaded) :
    s.sees cache decodeResponses = .ok (some loaded) := by
  rw [Sys.sees, entry, readReply, Client.read, decode_encode]
  cases decodeResponses with
  | true =>
      simp [Except.map, Cache.looked, swallowRedisError, Cache.decode, Cache.decode.loaded, loads]
  | false =>
      simp [Except.map, Cache.looked, swallowRedisError, Cache.decode, Cache.decode.loaded,
        decode_encode, loads]

/-- What a lookup of the entry raises is never a `LockAcquireError`. -/
theorem sees_not_lockError {s : Sys Value} {e : Exc}
    (raised : s.sees cache decodeResponses = .error e) : ¬ e.isLockAcquireError := by
  rcases looked_eq_error raised with ⟨read, -⟩ | notException
  · unfold readReply at read
    split at read
    · cases read
    · unfold Client.read at read
      split at read
      · split at read
        · cases read
        · obtain rfl := Except.error.inj read
          exact Bool.false_ne_true
      · cases read
  · intro lockError
    exact notException (e.derives (.inl lockError))

/-- A holder that finds a miss finds no success: its value would be in the entry, or the
holder would be writing it. -/
theorem Guarded.fresh_of_miss {s : Sys Value} {id : ℕ} {p : Proc Value}
    (guarded : Guarded cache key decodeResponses s) (there : s.calls id = some p)
    (holds : s.holder = some id) (reading : ¬ p.writes)
    (missed : s.sees cache decodeResponses = .ok none) : s.successes = [] := by
  cases guarded.progress with
  | fresh empty => exact empty
  | written value raw loaded one dumped loads stored =>
      rcases stored with entry | ⟨-, writer, q, holder, call, writes⟩
      · have hit : s.sees cache decodeResponses = .ok (some loaded) := sees_of_stored entry loads
        cases missed.symm.trans hit
      · obtain rfl := Option.some.inj (holder.symm.trans holds)
        obtain rfl := Option.some.inj (call.symm.trans there)
        exact absurd writes reading

/-- What a call finds at its first look-up is what is stored. -/
theorem Knows.sees_of_looked {s : Sys Value} {ranFactory : Bool} {reply : Except Exc (Option Raw)}
    (knows : Knows cache decodeResponses s ranFactory .lookingUp (some (.got reply)))
    (result : Except Exc Value) (looked : cache.looked reply = result.map some) :
    s.sees cache decodeResponses = result.map some := by
  obtain ⟨-, seen⟩ := knows
  rw [looked] at seen
  rcases seen with miss | same
  · exact absurd miss (map_some_ne_miss result)
  · exact same.symm

/-- The release hands the result on. -/
theorem caught_afterRelease {result : Except Exc Value}
    (other : ∀ e, result = .error e → ¬ e.isLockAcquireError) :
    Phase.caught true (afterRelease result (.ok ())) = .ended result := by
  cases result with
  | ok value => rfl
  | error e => simp [Phase.caught, afterRelease, swallowRedisError, other e rfl]

/-- A reply takes what a call knows to its next phase, and does not move the lock. -/
theorem Knows.resume {s : Sys Value} {ranFactory : Bool} {phase next : Phase Value}
    {answer : Answer Value} (guarding : cache.stampedeProtection = true)
    (knows : Knows cache decodeResponses s ranFactory phase (some answer))
    (fresh : phase.inside (some answer) = true → s.sees cache decodeResponses = .ok none →
      s.successes = [])
    (taken : phase.next cache answer = some next) :
    next.inside none = phase.inside (some answer) ∧
      Knows cache decodeResponses s ranFactory next none := by
  cases moves_of_next taken with
  | @lookupRaised reply e looked =>
      exact ⟨rfl, fun _ => knows.sees_of_looked (.error e) looked⟩
  | @hit reply value looked =>
      exact ⟨rfl, fun _ => knows.sees_of_looked (.ok value) looked⟩
  | miss looked =>
      rw [if_pos guarding]
      exact ⟨rfl, knows.1⟩
  | lockRaised => cases knows
  | lockTimedOut => cases knows
  | locked => exact ⟨rfl, knows⟩
  | recheckRaised looked =>
      obtain ⟨foreign, seen⟩ := knows
      have raised := seen.symm.trans looked
      refine ⟨rfl, fun _ => raised, fun raisedAlso same => ?_⟩
      obtain rfl := Except.error.inj same
      exact sees_not_lockError raised
  | found looked =>
      obtain ⟨foreign, seen⟩ := knows
      refine ⟨rfl, fun _ => seen.symm.trans looked, fun raisedAlso same => ?_⟩
      cases same
  | stillMissing looked =>
      obtain ⟨foreign, seen⟩ := knows
      have missed := seen.symm.trans looked
      exact ⟨rfl, rfl, foreign, missed, fresh rfl missed⟩
  | factoryRaised => cases knows
  | unserializable dumped => cases knows
  | serialized dumped => cases knows
  | @stored held value raw reply =>
      rcases reply with e | _
      · cases knows
      · obtain ⟨rfl, ran⟩ := knows
        refine ⟨rfl, fun foreign => ?_, fun raisedAlso same => ?_⟩
        · rw [ran] at foreign
          cases foreign
        · cases same
  | @released result reply =>
      rcases reply with e | _
      · cases knows
      · obtain ⟨seen, other⟩ := knows
        rw [caught_afterRelease other]
        exact ⟨rfl, seen⟩

theorem guarded_resume {s next : Sys Value} {id : ℕ} (guarding : cache.stampedeProtection = true)
    (guarded : Guarded cache key decodeResponses s)
    (taken : s.step cache key decodeResponses (.resume id) = some next) :
    Guarded cache key decodeResponses next := by
  obtain ⟨p, there, moved⟩ := Option.bind_eq_some_iff.mp taken
  obtain ⟨answer, pending, moved⟩ := Option.bind_eq_some_iff.mp moved
  obtain ⟨task', stepped, rfl⟩ := Option.map_eq_some_iff.mp moved
  obtain ⟨phase, ⟨ttlSeconds, task⟩, holds, knows⟩ := guarded.stands id p there
  rw [task, task_step] at stepped
  obtain ⟨phase', goes, rfl⟩ := Option.map_eq_some_iff.mp stepped
  rw [pending] at holds knows
  have reading : ¬ p.writes := fun writes => by cases pending.symm.trans writes.2
  obtain ⟨inside, known⟩ := knows.resume guarding
    (fun inside missed => guarded.fresh_of_miss there (holds.mpr inside) reading missed) goes
  refine guarded.quietMove rfl ⟨phase', ⟨ttlSeconds, rfl⟩, ?_, known⟩ rfl rfl rfl ?_
  · rw [inside]
    exact holds
  · intro q also
    obtain rfl := Option.some.inj (also.symm.trans there)
    exact reading

theorem phase_of_made {phase next : Phase Value} {result : Except Exc Value}
    (taken : phase.next cache (.made result) = some next) : ∃ held, phase = .computing held := by
  cases phase with
  | computing held => exact ⟨held, rfl⟩
  | _ => cases taken

variable (cache) in
/-- What the factories of a run do: no `LockAcquireError`, and no value that the
serializer cannot store and read back. -/
def Label.Plain : Label Value → Prop
  | .factory _ (.ok value) => Serializable cache value
  | .factory _ (.error e) => ¬ e.isLockAcquireError
  | _ => True

/-- A factory ends under the lock, and the first success is the only one. -/
theorem guarded_factory {s next : Sys Value} {id : ℕ} {result : Except Exc Value}
    (plain : (Label.factory id result).Plain cache)
    (guarded : Guarded cache key decodeResponses s)
    (taken : s.step cache key decodeResponses (.factory id result) = some next) :
    Guarded cache key decodeResponses next := by
  obtain ⟨p, there, moved⟩ := Option.bind_eq_some_iff.mp taken
  obtain ⟨task', stepped, rfl⟩ := Option.map_eq_some_iff.mp moved
  obtain ⟨phase, ⟨ttlSeconds, task⟩, holds, knows⟩ := guarded.stands id p there
  rw [task, task_step] at stepped
  obtain ⟨phase', goes, rfl⟩ := Option.map_eq_some_iff.mp stepped
  obtain ⟨held, rfl⟩ := phase_of_made goes
  cases pending : p.reply with
  | some answer =>
      rw [pending] at knows
      cases knows
  | none =>
      rw [pending] at holds knows
      obtain ⟨rfl, foreign, missed, empty⟩ := knows
      have own : s.holder = some id := holds.mpr rfl
      cases result with
      | error e =>
          obtain rfl := Option.some.inj goes
          have successes : s.successes ++ (Except.error e : Except Exc Value).toOption.toList =
              s.successes := List.append_nil _
          refine guarded.move rfl ⟨.releasing (.error e), ⟨ttlSeconds, rfl⟩, holds, ?_⟩
            (fun _ _ => Iff.rfl) (.inl ⟨rfl, successes⟩) (.fresh (successes.trans empty))
          refine ⟨nofun, fun raised same => ?_⟩
          obtain rfl := Except.error.inj same
          exact plain
      | ok value =>
          obtain ⟨raw, loaded, dumped, loads⟩ := plain
          simp only [Phase.next, dumped] at goes
          obtain rfl := Option.some.inj goes
          have successes : s.successes ++ (Except.ok value : Except Exc Value).toOption.toList =
              [value] := by
            rw [empty]
            rfl
          refine guarded.move rfl ⟨.storing true value raw, ⟨ttlSeconds, rfl⟩, holds, ?_⟩
            (fun _ _ => Iff.rfl) (.inr ⟨missed, own⟩) ?_
          · exact ⟨rfl, rfl, missed, successes, dumped⟩
          · let writer : Proc Value :=
              ⟨cache.task key ttlSeconds (.storing true value raw), none, true⟩
            refine .written value raw loaded successes dumped loads
              (.inr ⟨missed, id, writer, own, Function.update_self .., ?_⟩)
            exact ⟨⟨_, _, _, _, rfl⟩, rfl⟩

/-- Every step of a plain run keeps the guard. -/
theorem guarded_step {s next : Sys Value} {l : Label Value}
    (guarding : cache.stampedeProtection = true) (plain : l.Plain cache)
    (guarded : Guarded cache key decodeResponses s)
    (taken : s.step cache key decodeResponses l = some next) :
    Guarded cache key decodeResponses next := by
  cases l with
  | arrive id ttlSeconds => exact guarded_arrive guarded taken
  | redis id => exact guarded_redis guarded taken
  | resume id => exact guarded_resume guarding guarded taken
  | factory id result => exact guarded_factory plain guarded taken

theorem guarded_of_run {entry : Option Bytes} {s : Sys Value} {labels : List (Label Value)}
    (guarding : cache.stampedeProtection = true) (plain : ∀ l ∈ labels, l.Plain cache)
    (run : exec (Sys.step cache key decodeResponses) ⟨entry, none, [], fun _ => none⟩ labels =
      some s) : Guarded cache key decodeResponses s := by
  have start : Guarded cache key decodeResponses
      (⟨entry, none, [], fun _ => none⟩ : Sys Value) :=
    ⟨.fresh rfl, nofun, nofun⟩
  have every : EveryStep (Sys.step cache key decodeResponses) (fun _ l => l.Plain cache)
      ⟨entry, none, [], fun _ => none⟩ labels :=
    everyStep_of_forall_mem (fun l member _ => plain l member) _
  exact exec_invariant (fun _ _ _ plain guarded taken => guarded_step guarding plain guarded taken)
    run every start

/-! ## One computation -/

/-- A running factory is that of the holder of the lock. -/
theorem Stands.holder_of_computing {s : Sys Value} {id : ℕ} {p : Proc Value} {phase : Phase Value}
    (stands : Stands cache key decodeResponses s id p phase) (computing : p.task.computing) :
    s.holder = some id := by
  obtain ⟨ttlSeconds, task⟩ := stands.task
  have knows := stands.knows
  rw [task] at computing
  cases phase with
  | computing held =>
      cases pending : p.reply with
      | none =>
          rw [pending] at knows
          exact stands.holds.mpr knows.1
      | some answer =>
          rw [pending] at knows
          cases knows
  | _ => cases computing

theorem Guarded.collapsed {s : Sys Value} (guarded : Guarded cache key decodeResponses s) :
    Collapsed cache s := by
  refine ⟨fun first second p q hp hq runs also => ?_, ?_, ?_⟩
  · obtain ⟨_, stands⟩ := guarded.stands first p hp
    obtain ⟨_, standsAlso⟩ := guarded.stands second q hq
    have holds := stands.holder_of_computing runs
    exact Option.some.inj (holds.symm.trans (standsAlso.holder_of_computing also))
  · cases guarded.progress with
    | fresh empty => simp [empty]
    | written value raw loaded one => simp [one]
  · intro value member id p result there foreign finished
    obtain ⟨phase, ⟨ttlSeconds, task⟩, -, knows⟩ := guarded.stands id p there
    rw [task, result_task] at finished
    cases phase with
    | ended last =>
        obtain rfl := Option.some.inj finished
        have seen : s.sees cache decodeResponses = last.map some := by
          cases pending : p.reply with
          | none =>
              rw [pending] at knows
              exact knows foreign
          | some answer =>
              rw [pending] at knows
              cases knows
        cases guarded.progress with
        | fresh empty =>
            rw [empty] at member
            cases member
        | written value' raw loaded one dumped loads stored =>
            rw [one] at member
            obtain rfl := List.mem_singleton.mp member
            rcases stored with entry | ⟨missed, -⟩
            · have hit : s.sees cache decodeResponses = .ok (some loaded) :=
                sees_of_stored entry loads
              refine ⟨raw, loaded, dumped, loads, ?_⟩
              cases last with
              | error e => cases hit.symm.trans seen
              | ok found =>
                  obtain rfl : loaded = found := by
                    simpa [Except.map] using hit.symm.trans seen
                  rfl
            · exact absurd (seen.symm.trans missed) (map_some_ne_miss last)
    | _ => cases finished

/-- **Concurrent misses collapse into one computation.** In every run of any number of
calls on one key, whatever the entry was, in which no factory raises a
`LockAcquireError` and the values returned can be stored and read back: at every
moment at most one factory runs and at most one has succeeded, and every call that is
over by then and did not run its own has returned the decoding of the stored value. -/
theorem stampede_collapses (cache : Cache Value) (key : String) (decodeResponses : Bool)
    (guarding : cache.stampedeProtection = true) (entry : Option Bytes) (s : Sys Value)
    (labels : List (Label Value)) (plain : ∀ l ∈ labels, l.Plain cache)
    (run : exec (Sys.step cache key decodeResponses) ⟨entry, none, [], fun _ => none⟩ labels =
      some s) : Collapsed cache s :=
  (guarded_of_run guarding plain run).collapsed

/-- A call awaits a command or the end of its lookups, and gets it. -/
def served (id : ℕ) : List (Label String) := [.redis id, .resume id]

/-- Two calls miss at the same time, and call 0 finds the entry still missing under the
lock: its factory runs. -/
def twoMisses : List (Label String) :=
  [.arrive 0 none, .arrive 1 none] ++ served 0 ++ served 1 ++ served 0 ++ served 0

/-- Call 0 computes and stores; call 1 gets the lock after it and reads the value. -/
theorem second_miss_reads_first :
    ∃ s ∈ exec (Sys.step texts "p1" false) ⟨none, none, [], fun _ => none⟩
        (twoMisses ++ [.factory 0 (.ok "mug")] ++ served 0 ++ served 0 ++ served 1 ++ served 1 ++
          served 1),
      (∃ p ∈ s.calls 1, p.ranFactory = false ∧ p.task.result = some (.ok "mug")) ∧
        Collapsed texts s := by
  obtain ⟨s, run, read⟩ : ∃ s ∈ exec (Sys.step texts "p1" false) ⟨none, none, [], fun _ => none⟩
      (twoMisses ++ [.factory 0 (.ok "mug")] ++ served 0 ++ served 0 ++ served 1 ++ served 1 ++
        served 1),
      ∃ p ∈ s.calls 1, p.ranFactory = false ∧ p.task.result = some (.ok "mug") := by
    decide +kernel
  refine ⟨s, run, read, stampede_collapses texts "p1" false rfl none s _ ?_ run⟩
  have stored : Serializable texts "mug" := ⟨"mug", "mug", rfl, rfl⟩
  simp [twoMisses, served, Label.Plain, stored]

/-- **Two factories at once.** The factory of call 0 raises a `LockAcquireError` under
the lock. The call takes it for its own lock, releases it and runs the factory again;
call 1, given the lock, finds the entry still missing and runs its own beside it. -/
theorem two_factories_at_once :
    ∃ s ∈ exec (Sys.step texts "p1" false) ⟨none, none, [], fun _ => none⟩
        (twoMisses ++ [.factory 0 (.error lockAcquireError)] ++ served 0 ++ served 1 ++ served 1),
      (∃ p ∈ s.calls 0, p.task.computing) ∧ (∃ p ∈ s.calls 1, p.task.computing) ∧
        ¬ Collapsed texts s := by
  obtain ⟨s, run, p, hp, runs, q, hq, also⟩ :
      ∃ s ∈ exec (Sys.step texts "p1" false) ⟨none, none, [], fun _ => none⟩
        (twoMisses ++ [.factory 0 (.error lockAcquireError)] ++ served 0 ++ served 1 ++ served 1),
        ∃ p ∈ s.calls 0, p.task.computing ∧ ∃ q ∈ s.calls 1, q.task.computing := by
    decide +kernel
  refine ⟨s, run, ⟨p, hp, runs⟩, ⟨q, hq, also⟩, fun collapsed => ?_⟩
  exact absurd (collapsed.alone 0 1 p q hp hq runs also) (by decide)

end PyCommon.CacheAside
