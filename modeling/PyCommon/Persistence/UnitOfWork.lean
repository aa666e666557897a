import Mathlib.Data.List.Induction
import PyCommon.Asgi
import PyCommon.Lib.Handles

/-!
# The unit of work

`SqlAlchemyUnitOfWork` opens a session from its factory when it is entered and keeps it in one
field. Leaving it commits the session, or rolls it back after an exception, and then closes it and
empties the field whatever the commit or the rollback did. A close that raises leaves the session
in the field. `commit` and `rollback` may also be called from the inside, and raise while no
session is there.

Entering does not look at the field. A unit that is entered again before it is left forgets the
session it had, and nothing closes it: no session is lost along a run exactly when each entry finds
the unit inactive (`sessions_noneLost_iff`). In such a run every session that was let go has been
asked, by the exit that let it go, to commit or to roll back as the exit was told, and to close,
and has been asked nothing since (`settled_and_closed`).

`FakeUnitOfWork` records in four flags what happened to it. It has no session that could be
missing, and so it takes a commit, a rollback or an exit for done where the real unit refuses or
does nothing. Its flags tell what the sessions of the real unit were asked, exactly as long as no
such call sets one of them (`fake_agrees_iff`).
-/

set_option autoImplicit false

namespace PyCommon.UnitOfWork

open Handles StepSystem

/-! ## The unit over a session factory -/

/-- A call on a session. `work` stands for whatever the body of the unit does with it. -/
inductive Call where
  | work
  | commit
  | rollback
  | close
  deriving DecidableEq

/-- A call that was made, on which session, and what it raised. -/
structure Made where
  session : ℕ
  call : Call
  fault : Option PyExc
  deriving DecidableEq

/-- What a call on the unit raises: `RuntimeError("UnitOfWork is not active")`, an attribute of
`None`, or what the session raised. -/
inductive Raised where
  | runtimeError
  | attributeError
  | session (e : PyExc)
  deriving DecidableEq

/-- `SqlAlchemyUnitOfWork`, with the calls made so far on the sessions of its factory.
`sessions.held` is `self.session`. -/
structure SqlAlchemyUnitOfWork where
  sessions : Slot := .empty
  calls : List Made := []
  deriving DecidableEq

namespace SqlAlchemyUnitOfWork

/-- Call a session, which raises what the call meets. -/
def ask (uow : SqlAlchemyUnitOfWork) (id : ℕ) (call : Call) (fault : Option PyExc) :
    SqlAlchemyUnitOfWork × Except Raised Unit :=
  ({ uow with calls := uow.calls ++ [⟨id, call, fault⟩] },
    match fault with
    | none => .ok ()
    | some e => .error (.session e))

/-- `__aenter__`. -/
def aenter (uow : SqlAlchemyUnitOfWork) : SqlAlchemyUnitOfWork :=
  { uow with sessions := uow.sessions.acquire }

/-- `uow.session.…`, in the body of the unit. -/
def work (uow : SqlAlchemyUnitOfWork) (fault : Option PyExc) :
    SqlAlchemyUnitOfWork × Except Raised Unit :=
  match uow.sessions.held with
  | none => (uow, .error .attributeError)
  | some id => uow.ask id .work fault

/-- `commit`. -/
def commit (uow : SqlAlchemyUnitOfWork) (fault : Option PyExc) :
    SqlAlchemyUnitOfWork × Except Raised Unit :=
  match uow.sessions.held with
  | none => (uow, .error .runtimeError)
  | some id => uow.ask id .commit fault

/-- `rollback`. -/
def rollback (uow : SqlAlchemyUnitOfWork) (fault : Option PyExc) :
    SqlAlchemyUnitOfWork × Except Raised Unit :=
  match uow.sessions.held with
  | none => (uow, .error .runtimeError)
  | some id => uow.ask id .rollback fault

/-- The `finally` of `__aexit__`: close the session and empty the field. An exception of the close
takes the place of the one on its way, and leaves the field as it is. -/
def finish (uow : SqlAlchemyUnitOfWork) (outcome : Except Raised Unit) (closed : Option PyExc) :
    SqlAlchemyUnitOfWork × Except Raised Unit :=
  match uow.sessions.held with
  | none => (uow, .error .attributeError)
  | some id =>
      match uow.ask id .close closed with
      | (after, .error e) => (after, .error e)
      | (after, .ok ()) => ({ after with sessions := after.sessions.release }, outcome)

/-- `__aexit__`. The exception is the one the body raised, of any class. -/
def aexit (uow : SqlAlchemyUnitOfWork) (exc settled closed : Option PyExc) :
    SqlAlchemyUnitOfWork × Except Raised Unit :=
  match uow.sessions.held with
  | none => (uow, .ok ())
  | some _ =>
      let (settling, outcome) := if exc.isSome then uow.rollback settled else uow.commit settled
      settling.finish outcome closed

end SqlAlchemyUnitOfWork

/-- A call on the unit, or on its session, with what the calls on the session raise. -/
inductive Op where
  | enter
  | work (fault : Option PyExc)
  | commit (fault : Option PyExc)
  | rollback (fault : Option PyExc)
  | exit (exc settled closed : Option PyExc)
  deriving DecidableEq

def step (uow : SqlAlchemyUnitOfWork) : Op → Option SqlAlchemyUnitOfWork
  | .enter => some uow.aenter
  | .work fault => some (uow.work fault).1
  | .commit fault => some (uow.commit fault).1
  | .rollback fault => some (uow.rollback fault).1
  | .exit exc settled closed => some (uow.aexit exc settled closed).1

/-- The call that leaving the unit settles its session with. -/
def settling (exc : Option PyExc) : Call := if exc.isSome then .rollback else .commit

/-! ## What a step does -/

/-- What a call does to a unit: it makes calls on the session that is held, and after a close that
succeeds the session is let go. -/
inductive Does (uow : SqlAlchemyUnitOfWork) : Op → SqlAlchemyUnitOfWork → Prop
  | entered : Does uow .enter uow.aenter
  | idle {op : Op} (inactive : uow.sessions.held = none) (other : op ≠ .enter) : Does uow op uow
  | worked {fault : Option PyExc} {id : ℕ} (held : uow.sessions.held = some id) :
      Does uow (.work fault) { uow with calls := uow.calls ++ [⟨id, .work, fault⟩] }
  | committed {fault : Option PyExc} {id : ℕ} (held : uow.sessions.held = some id) :
      Does uow (.commit fault) { uow with calls := uow.calls ++ [⟨id, .commit, fault⟩] }
  | rolledBack {fault : Option PyExc} {id : ℕ} (held : uow.sessions.held = some id) :
      Does uow (.rollback fault) { uow with calls := uow.calls ++ [⟨id, .rollback, fault⟩] }
  | stuck {exc settled : Option PyExc} {e : PyExc} {id : ℕ} (held : uow.sessions.held = some id) :
      Does uow (.exit exc settled (some e))
        { uow with calls := uow.calls ++ [⟨id, settling exc, settled⟩] ++ [⟨id, .close, some e⟩] }
  | left {exc settled : Option PyExc} {id : ℕ} (held : uow.sessions.held = some id) :
      Does uow (.exit exc settled none)
        { sessions := uow.sessions.release
          calls := uow.calls ++ [⟨id, settling exc, settled⟩] ++ [⟨id, .close, none⟩] }

theorem settle_eq {uow : SqlAlchemyUnitOfWork} {id : ℕ} (held : uow.sessions.held = some id)
    (exc settled : Option PyExc) :
    (if exc.isSome then uow.rollback settled else uow.commit settled) =
      uow.ask id (settling exc) settled := by
  unfold settling SqlAlchemyUnitOfWork.rollback SqlAlchemyUnitOfWork.commit
  rw [held]
  cases exc <;> rfl

theorem does_of_step {uow next : SqlAlchemyUnitOfWork} {op : Op}
    (taken : step uow op = some next) : Does uow op next := by
  cases op with
  | enter =>
      obtain rfl := Option.some.inj taken
      exact .entered
  | work fault =>
      obtain rfl := Option.some.inj taken
      unfold SqlAlchemyUnitOfWork.work
      cases held : uow.sessions.held with
      | none => exact .idle held fun same => by cases same
      | some id => exact .worked held
  | commit fault =>
      obtain rfl := Option.some.inj taken
      unfold SqlAlchemyUnitOfWork.commit
      cases held : uow.sessions.held with
      | none => exact .idle held fun same => by cases same
      | some id => exact .committed held
  | rollback fault =>
      obtain rfl := Option.some.inj taken
      unfold SqlAlchemyUnitOfWork.rollback
      cases held : uow.sessions.held with
      | none => exact .idle held fun same => by cases same
      | some id => exact .rolledBack held
  | exit exc settled closed =>
      obtain rfl := Option.some.inj taken
      unfold SqlAlchemyUnitOfWork.aexit
      cases held : uow.sessions.held with
      | none => exact .idle held fun same => by cases same
      | some id =>
          rw [settle_eq held]
          simp only [SqlAlchemyUnitOfWork.ask, SqlAlchemyUnitOfWork.finish, held]
          cases closed with
          | none => exact .left held
          | some e => exact .stuck held

/-! ## No session lost -/

/-- A unit that was never entered. -/
def start : SqlAlchemyUnitOfWork := {}

theorem sessions_acquired (uow : SqlAlchemyUnitOfWork) (op : Op) (next : SqlAlchemyUnitOfWork)
    (enters : op = .enter) (taken : step uow op = some next) :
    next.sessions = uow.sessions.acquire := by
  subst enters
  obtain rfl := Option.some.inj taken
  rfl

theorem sessions_others (uow : SqlAlchemyUnitOfWork) (op : Op) (next : SqlAlchemyUnitOfWork)
    (other : op ≠ .enter) (taken : step uow op = some next) :
    next.sessions = uow.sessions ∨ next.sessions = uow.sessions.release := by
  cases does_of_step taken with
  | entered => exact absurd rfl other
  | left held => exact .inr rfl
  | _ => exact .inl rfl

/-- **No session is lost along a run exactly when each entry finds the unit inactive.** -/
theorem sessions_noneLost_iff {ops : List Op} {uow : SqlAlchemyUnitOfWork}
    (run : exec step start ops = some uow) :
    EveryState step (fun uow => uow.sessions.NoneLost) start ops ↔
      EveryStep step (fun uow op => op = .enter → uow.sessions.held = none) start ops :=
  noneLost_iff SqlAlchemyUnitOfWork.sessions (fun _ op => op = .enter) sessions_acquired
    sessions_others run Slot.noneLost_empty

/-- A unit entered again before it is left loses its first session. -/
theorem reentered_loses :
    ¬ EveryState step (fun uow => uow.sessions.NoneLost) start
        [.enter, .enter, .exit none none none] := by
  rw [sessions_noneLost_iff rfl]
  decide

/-! ## What a session was asked -/

/-- The calls made on one session, in order. -/
def SqlAlchemyUnitOfWork.history (uow : SqlAlchemyUnitOfWork) (id : ℕ) : List Made :=
  uow.calls.filter fun made => made.session = id

section History

variable {uow next : SqlAlchemyUnitOfWork} {op : Op} {id : ℕ}

theorem history_append_of_ne {made : Made} {calls : List Made} (other : made.session ≠ id) :
    (calls ++ [made]).filter (fun made => made.session = id) =
      calls.filter fun made => made.session = id := by
  simp [List.filter_append, other]

/-- A session that is not held is asked nothing. -/
theorem history_of_not_held (taken : step uow op = some next)
    (apart : uow.sessions.held ≠ some id) : next.history id = uow.history id := by
  have other {held : ℕ} (holds : uow.sessions.held = some held) : held ≠ id := fun same =>
    apart (same ▸ holds)
  cases does_of_step taken with
  | entered => rfl
  | idle inactive => rfl
  | worked held => exact history_append_of_ne (other held)
  | committed held => exact history_append_of_ne (other held)
  | rolledBack held => exact history_append_of_ne (other held)
  | stuck held =>
      exact (history_append_of_ne (other held)).trans (history_append_of_ne (other held))
  | left held =>
      exact (history_append_of_ne (other held)).trans (history_append_of_ne (other held))

/-- Closes that succeeded are closes of sessions that were let go. -/
def ClosedEnded (uow : SqlAlchemyUnitOfWork) : Prop :=
  ∀ made ∈ uow.calls, made.call = .close → made.fault = none → made.session ∈ uow.sessions.ended

theorem ClosedEnded.add {made : Made} (closed : ClosedEnded uow)
    (ended : made.call = .close → made.fault = none → made.session ∈ uow.sessions.ended) :
    ClosedEnded { uow with calls := uow.calls ++ [made] } := by
  intro any member
  rcases List.mem_append.mp member with earlier | last
  · exact closed any earlier
  · obtain rfl := List.mem_singleton.mp last
    exact ended

theorem settling_ne_close (exc : Option PyExc) : settling exc ≠ .close := by
  cases exc <;> simp [settling]

theorem closedEnded_step (closed : ClosedEnded uow) (taken : step uow op = some next) :
    ClosedEnded next := by
  cases does_of_step taken with
  | entered => exact closed
  | idle inactive => exact closed
  | worked held => exact closed.add fun close => by cases close
  | committed held => exact closed.add fun close => by cases close
  | rolledBack held => exact closed.add fun close => by cases close
  | stuck held =>
      exact (closed.add fun close => absurd close (settling_ne_close _)).add fun _ raised => by
        cases raised
  | left held =>
      have released : ClosedEnded { uow with sessions := uow.sessions.release } :=
        fun made member close fine => List.mem_append_left _ (closed made member close fine)
      refine (released.add fun close => absurd close (settling_ne_close _)).add fun _ _ => ?_
      rw [Slot.ended_release, held]
      exact List.mem_append_right _ (List.mem_singleton_self _)

end History

/-- How a session was let go: by an exit that found it held, before which no close of it had
succeeded. The exit had it commit, or roll back after an exception, and close, and it was asked
nothing since. -/
def LetGo (ops : List Op) (uow : SqlAlchemyUnitOfWork) (id : ℕ) : Prop :=
  ∃ before after exc settled leaving,
    ops = before ++ .exit exc settled none :: after ∧
      exec step start before = some leaving ∧ leaving.sessions.held = some id ∧
      (∀ made ∈ leaving.history id, made.call = .close → made.fault ≠ none) ∧
      uow.history id =
        leaving.history id ++ [⟨id, settling exc, settled⟩, ⟨id, .close, none⟩]

theorem letGo_of_ended {ops : List Op} {uow : SqlAlchemyUnitOfWork} {id : ℕ}
    (run : exec step start ops = some uow) (ended : id ∈ uow.sessions.ended) :
    LetGo ops uow id := by
  induction ops using List.reverseRecOn generalizing uow with
  | nil =>
      obtain rfl := Option.some.inj run
      exact absurd ended List.not_mem_nil
  | append_singleton ops op ih =>
      obtain ⟨middle, front, taken⟩ := exec_concat_eq_some run
      by_cases earlier : id ∈ middle.sessions.ended
      · obtain ⟨before, after, exc, settled, leaving, split, reached, held, opened, asked⟩ :=
          ih front earlier
        have apart : middle.sessions.held ≠ some id := fun holds =>
          middle.sessions.held_open id holds earlier
        refine ⟨before, after ++ [op], exc, settled, leaving, ?_, reached, held, opened, ?_⟩
        · rw [split, List.append_assoc, List.cons_append]
        · rw [history_of_not_held taken apart, asked]
      · have closed : ClosedEnded middle :=
          exec_invariant_always (fun _ _ _ closed => closedEnded_step closed) front
            fun made member => absurd member List.not_mem_nil
        cases does_of_step taken with
        | @left exc settled held' held =>
            rw [Slot.ended_release, held] at ended
            obtain rfl : id = held' := by
              rcases List.mem_append.mp ended with before | last
              · exact absurd before earlier
              · exact List.mem_singleton.mp last
            refine ⟨ops, [], exc, settled, middle, rfl, front, held, ?_, ?_⟩
            · intro made member close fine
              obtain ⟨member, same⟩ := List.mem_filter.mp member
              have gone := closed made member close fine
              rw [of_decide_eq_true same] at gone
              exact earlier gone
            · simp [SqlAlchemyUnitOfWork.history, List.filter_append]
        | _ => exact absurd ended earlier

/-- **Every session is settled as its exit was told, closed once, and then left alone.** -/
theorem settled_and_closed {ops : List Op} {uow : SqlAlchemyUnitOfWork} {id : ℕ}
    (run : exec step start ops = some uow)
    (alone : EveryStep step (fun uow op => op = .enter → uow.sessions.held = none) start ops)
    (made : id < uow.sessions.made) (gone : uow.sessions.held ≠ some id) : LetGo ops uow id := by
  have kept : uow.sessions.NoneLost :=
    ((noneLost_iff SqlAlchemyUnitOfWork.sessions (fun _ op => op = .enter) sessions_acquired
      sessions_others run Slot.noneLost_empty).mpr alone).last run
  by_contra stays
  exact kept id ⟨made, gone, fun ended => stays (letGo_of_ended run ended)⟩

/-- Two units of work on one object, the second left by an exception while its close fails once. -/
def retriedClose : List Op :=
  [.enter, .work none, .exit none none none, .enter, .work (some (.error 1)),
    .exit (some (.error 1)) none (some (.error 2)), .exit (some (.error 2)) none none]

theorem first_of_retriedClose :
    LetGo retriedClose ((exec step start retriedClose).getD start) 0 :=
  settled_and_closed rfl (by decide) (by decide) (by decide)

/-! ## The fake -/

/-- `FakeUnitOfWork`. -/
structure FakeUnitOfWork where
  committed : Bool := false
  rolledBack : Bool := false
  entered : Bool := false
  exited : Bool := false
  deriving DecidableEq

namespace FakeUnitOfWork

def aenter (fake : FakeUnitOfWork) : FakeUnitOfWork := { fake with entered := true }

def commit (fake : FakeUnitOfWork) : FakeUnitOfWork := { fake with committed := true }

def rollback (fake : FakeUnitOfWork) : FakeUnitOfWork := { fake with rolledBack := true }

def aexit (fake : FakeUnitOfWork) (exc : Option PyExc) : FakeUnitOfWork :=
  let left := { fake with exited := true }
  if exc.isSome then left.rollback else left.commit

/-- The same calls on the fake, which has no session to work with. -/
def after (fake : FakeUnitOfWork) : Op → FakeUnitOfWork
  | .enter => fake.aenter
  | .work _ => fake
  | .commit _ => fake.commit
  | .rollback _ => fake.rollback
  | .exit exc _ _ => fake.aexit exc

end FakeUnitOfWork

/-- A real unit and a fake, used alike. -/
structure Pair where
  real : SqlAlchemyUnitOfWork := {}
  fake : FakeUnitOfWork := {}

def Pair.step (pair : Pair) (op : Op) : Option Pair :=
  (UnitOfWork.step pair.real op).map fun real => ⟨real, pair.fake.after op⟩

/-- Whether some session was asked this. -/
def SqlAlchemyUnitOfWork.asked (uow : SqlAlchemyUnitOfWork) (call : Call) : Bool :=
  uow.calls.any fun made => made.call = call

/-- The flags that say what the sessions of the unit were asked. -/
def SqlAlchemyUnitOfWork.flags (uow : SqlAlchemyUnitOfWork) : FakeUnitOfWork where
  committed := uow.asked .commit
  rolledBack := uow.asked .rollback
  entered := uow.sessions.made != 0
  exited := uow.asked .close

/-- The fake tells what the sessions of the real unit were asked. -/
def Pair.Agrees (pair : Pair) : Prop := pair.fake = pair.real.flags

/-- A call that finds the unit inactive, and is no entry, sets no flag. -/
def Pair.SetsNothing (pair : Pair) (op : Op) : Prop :=
  pair.real.sessions.held = none → op ≠ .enter → pair.fake.after op = pair.fake

/-- The flag for a call on a session. -/
def FakeUnitOfWork.note (fake : FakeUnitOfWork) : Call → FakeUnitOfWork
  | .work => fake
  | .commit => fake.commit
  | .rollback => fake.rollback
  | .close => { fake with exited := true }

theorem flags_append {sessions : Slot} {calls : List Made} {made : Made} :
    SqlAlchemyUnitOfWork.flags { sessions, calls := calls ++ [made] } =
      (SqlAlchemyUnitOfWork.flags { sessions, calls }).note made.call := by
  obtain ⟨_, call, _⟩ := made
  cases call <;>
    simp [SqlAlchemyUnitOfWork.flags, SqlAlchemyUnitOfWork.asked, FakeUnitOfWork.note,
      FakeUnitOfWork.commit, FakeUnitOfWork.rollback]

theorem note_settling_close (fake : FakeUnitOfWork) (exc : Option PyExc) :
    (fake.note (settling exc)).note .close = fake.aexit exc := by
  cases exc <;> rfl

/-- What a call adds to the flags of a unit that is active, or is entered. -/
theorem flags_of_does {uow next : SqlAlchemyUnitOfWork} {op : Op} (does : Does uow op next)
    (active : op ≠ .enter → uow.sessions.held ≠ none) : next.flags = uow.flags.after op := by
  cases does with
  | entered => rfl
  | idle inactive other => exact absurd inactive (active other)
  | worked held => exact flags_append
  | committed held => exact flags_append
  | rolledBack held => exact flags_append
  | @stuck exc =>
      rw [flags_append, flags_append]
      exact note_settling_close uow.flags exc
  | @left exc =>
      rw [flags_append, flags_append]
      exact note_settling_close uow.flags exc

/-- **The fake tells what the real sessions were asked** exactly as long as no call on an inactive
unit, other than entering it, sets a flag. -/
theorem fake_agrees_iff {ops : List Op} {pair : Pair} (run : exec Pair.step {} ops = some pair) :
    EveryState Pair.step Pair.Agrees {} ops ↔ EveryStep Pair.step Pair.SetsNothing {} ops := by
  have still {uow next : SqlAlchemyUnitOfWork} {op : Op} (taken : step uow op = some next)
      (inactive : uow.sessions.held = none) (other : op ≠ .enter) : next = uow := by
    cases does_of_step taken <;> simp_all
  refine everyState_iff_everyStep (fun _ agrees => agrees) ?_ ?_ run
    (everyStep_of_forall_mem (fun _ _ _ => trivial) _) rfl
  · intro pair op next _ quiet agrees taken
    obtain ⟨real, done, rfl⟩ := Option.map_eq_some_iff.mp taken
    by_cases idle : op ≠ .enter ∧ pair.real.sessions.held = none
    · obtain rfl := still done idle.2 idle.1
      exact (quiet idle.2 idle.1).trans agrees
    · have flags := flags_of_does (does_of_step done) fun other inactive => idle ⟨other, inactive⟩
      exact (congrArg (fun fake => fake.after op) agrees).trans flags.symm
  · intro pair op next _ loud agrees taken after
    obtain ⟨real, done, rfl⟩ := Option.map_eq_some_iff.mp taken
    refine loud fun inactive other => ?_
    obtain rfl := still done inactive other
    exact Eq.trans after agrees.symm

/-- A commit outside any unit of work: the real one raises, the fake says it committed. -/
theorem fake_commits_outside :
    ¬ EveryState Pair.step Pair.Agrees {}
        [.enter, .exit (some (.error 1)) none none, .commit none] := by
  rw [fake_agrees_iff rfl]
  intro every
  have quiet := (((every.2 _ rfl).2 _ rfl).1) rfl fun same => by cases same
  exact absurd (congrArg FakeUnitOfWork.committed quiet) (by decide)

end PyCommon.UnitOfWork
