import Mathlib.Algebra.Order.Ring.Rat
import Mathlib.Tactic.Linarith
import PyCommon.Lib.Runs

/-!
# The service token provider

`ClientCredentialsTokenProvider` under any interleaving of its callers. A `get_token` takes the
lock, checks the cached token against the clock, and if it has to, sends a request and waits; what
it makes of the answer, it makes in one go. `invalidate` asks for no lock and so strikes at any
time, also while a request is under way. The token and `_expires_at` are assigned one after the
other, and the conversion of `expires_in` between them may raise.

Whoever is past its check holds the lock, and the token it found is gone or has expired and stays
so (`Call.Fits`). A half-finished update leaves the new token with the old `_expires_at`, which
is over. From this follow the guarantees of a run (`provider_sound`).
-/

set_option autoImplicit false

namespace PyCommon.ServiceToken

open StepSystem

/-! ## Floats and payloads -/

/-- A float, without its rounding. -/
inductive Seconds where
  | nan
  | negInf
  | num (value : ℚ)
  | inf
  deriving DecidableEq

def Seconds.lt : Seconds → Seconds → Bool
  | .num a, .num b => a < b
  | .num _, .inf => true
  | .negInf, .num _ => true
  | .negInf, .inf => true
  | _, _ => false

def Seconds.sub : Seconds → Seconds → Seconds
  | .num a, .num b => .num (a - b)
  | .num _, .inf => .negInf
  | .num _, .negInf => .inf
  | .inf, .num _ => .inf
  | .inf, .negInf => .inf
  | .negInf, .num _ => .negInf
  | .negInf, .inf => .negInf
  | _, _ => .nan

/-- `now + x` for the time of a clock. -/
def Seconds.after (now : ℚ) : Seconds → Seconds
  | .num x => .num (now + x)
  | x => x

/-- `max(x, 1.0)`, which is `x` unless `1.0` is greater. -/
def Seconds.maxOne (x : Seconds) : Seconds := if x.lt (.num 1) then .num 1 else x

/-- The clock has reached a time: it is not before it. -/
def Seconds.ReachedBy (now : ℚ) (x : Seconds) : Prop := (Seconds.num now).lt x = false

instance (now : ℚ) (x : Seconds) : Decidable (x.ReachedBy now) :=
  inferInstanceAs (Decidable ((Seconds.num now).lt x = false))

/-- `payload.get("expires_in", 60)`. -/
inductive ExpiresIn where
  | missing
  | number (x : Seconds)
  | notNumeric
  deriving DecidableEq

/-- `float(…)` of it, unless that raises. -/
def ExpiresIn.toFloat : ExpiresIn → Option Seconds
  | .missing => some (.num 60)
  | .number x => some x
  | .notNumeric => none

/-- How a request ends: it raises, as does the reading of its answer, or there is a payload.
`accessToken` is `str(payload["access_token"])`, unless that raises. -/
inductive Reply where
  | raised
  | payload (accessToken : Option String) (expiresIn : ExpiresIn)
  deriving DecidableEq

/-- What the provider reads of `KeycloakSettings`. -/
structure Settings where
  tokenUrl : String
  clientId : String
  clientSecret : String
  tokenScope : Option String

structure Provider where
  settings : Settings
  refreshLeewaySeconds : Seconds := .num 30

structure Request where
  url : String
  form : List (String × String)
  deriving DecidableEq

/-- The request of `get_token`. A scope that is not set or empty is left out. -/
def tokenRequest (settings : Settings) : Request where
  url := settings.tokenUrl
  form :=
    [("grant_type", "client_credentials"), ("client_id", settings.clientId),
      ("client_secret", settings.clientSecret)] ++
    match settings.tokenScope with
    | some scope => if scope = "" then [] else [("scope", scope)]
    | none => []

/-! ## The calls and the provider's state -/

/-- A token with its number among the tokens the provider has cached. -/
structure Token where
  text : String
  serial : ℕ
  deriving DecidableEq

/-- A call of `get_token`. `floor` is how many tokens had been cached before the last
`invalidate` before its check. -/
inductive Call where
  | waiting
  | holding
  | missed (floor : ℕ)
  | requesting (floor : ℕ) (request : Request)
  | returned (floor : ℕ) (token : Token)
  | raised
  deriving DecidableEq

/-- `token` and `expiresAt` are the fields, `holder` is the call that holds the lock, and the
last three are the history: how many tokens have been cached, how many of them before the last
`invalidate`, and whether no request has succeeded since one failed. -/
structure System where
  now : ℚ
  token : Option Token := none
  expiresAt : Seconds := .num 0
  holder : Option ℕ := none
  calls : List Call := []
  cached : ℕ := 0
  dropped : ℕ := 0
  failed : Bool := false
  deriving DecidableEq

inductive Event where
  | elapse (d : ℚ)
  | invalidate
  | call
  | acquire (i : ℕ)
  | check (i : ℕ)
  | send (i : ℕ)
  | answer (i : ℕ) (reply : Reply)
  | cancel (i : ℕ)
  deriving DecidableEq

def System.put (s : System) (i : ℕ) (c : Call) : System := { s with calls := s.calls.set i c }

/-- A call leaves the `async with self._lock`. -/
def System.leave (s : System) (i : ℕ) (c : Call) : System := { s.put i c with holder := none }

/-- A call leaves by an exception, after its request was sent. -/
def System.fail (s : System) (i : ℕ) : System := { s.leave i .raised with failed := true }

/-- `if self._token is not None and time.monotonic() < self._expires_at`. -/
def System.check (s : System) (i : ℕ) : System :=
  match s.token with
  | none => s.put i (.missed s.dropped)
  | some token =>
      if (Seconds.num s.now).lt s.expiresAt then s.leave i (.returned s.dropped token)
      else s.put i (.missed s.dropped)

/-- The rest of `get_token`, from the end of its request on. -/
def System.answered (provider : Provider) (s : System) (i floor : ℕ) : Reply → System
  | .raised => s.fail i
  | .payload none _ => s.fail i
  | .payload (some text) expiresIn =>
      let token : Token := ⟨text, s.cached⟩
      let s := { s with token := some token, cached := s.cached + 1 }
      match expiresIn.toFloat with
      | none => s.fail i
      | some expires =>
          { s.leave i (.returned floor token) with
            expiresAt := Seconds.after s.now (expires.sub provider.refreshLeewaySeconds).maxOne
            failed := false }

/-- A call may be cancelled wherever it awaits something. -/
def step (provider : Provider) (s : System) : Event → Option System
  | .elapse d => if 0 ≤ d then some { s with now := s.now + d } else none
  | .invalidate => some { s with token := none, expiresAt := .num 0, dropped := s.cached }
  | .call => some { s with calls := s.calls ++ [.waiting] }
  | .acquire i =>
      match s.calls[i]?, s.holder with
      | some .waiting, none => some { s.put i .holding with holder := some i }
      | _, _ => none
  | .check i =>
      match s.calls[i]? with
      | some .holding => some (s.check i)
      | _ => none
  | .send i =>
      match s.calls[i]? with
      | some (.missed floor) => some (s.put i (.requesting floor (tokenRequest provider.settings)))
      | _ => none
  | .answer i reply =>
      match s.calls[i]? with
      | some (.requesting floor _) => some (s.answered provider i floor reply)
      | _ => none
  | .cancel i =>
      match s.calls[i]? with
      | some .waiting => some (s.put i .raised)
      | some .holding => some (s.leave i .raised)
      | some (.missed _) => some (s.leave i .raised)
      | some (.requesting _ _) => some (s.fail i)
      | _ => none

/-! ## What holds of every state -/

/-- The check would return the cached token. -/
def System.Fresh (s : System) : Prop := s.token ≠ none ∧ ¬ s.expiresAt.ReachedBy s.now

/-- A call past its check holds the lock, and the check would fail still. A call that returned
has a token that no `invalidate` before its check had dropped. -/
def Call.Fits (s : System) (i : ℕ) : Call → Prop
  | .waiting => True
  | .holding => s.holder = some i
  | .missed floor => s.holder = some i ∧ ¬ s.Fresh ∧ floor ≤ s.cached
  | .requesting floor _ => s.holder = some i ∧ ¬ s.Fresh ∧ floor ≤ s.cached
  | .returned floor token => floor ≤ token.serial
  | .raised => True

structure Good (s : System) : Prop where
  clock : 0 ≤ s.now
  empty : s.token = none → s.expiresAt = .num 0
  serial : ∀ token ∈ s.token, s.dropped ≤ token.serial
  bounded : s.dropped ≤ s.cached
  stale : s.failed = true → ¬ s.Fresh
  calls : ∀ (i : ℕ) (c : Call), s.calls[i]? = some c → c.Fits s i

variable {provider : Provider} {s next : System} {c : Call} {i j : ℕ}

theorem reachedBy_num {now x : ℚ} : (Seconds.num x).ReachedBy now ↔ x ≤ now := by
  simp [Seconds.ReachedBy, Seconds.lt]

/-- A time that has been reached stays so. -/
theorem ReachedBy.mono {now later : ℚ} {x : Seconds} (ordered : now ≤ later)
    (reached : x.ReachedBy now) : x.ReachedBy later := by
  cases x with
  | nan => rfl
  | negInf => rfl
  | num x => exact reachedBy_num.mpr ((reachedBy_num.mp reached).trans ordered)
  | inf => cases reached

theorem not_fresh_iff : ¬ s.Fresh ↔ s.token = none ∨ s.expiresAt.ReachedBy s.now := by
  rw [System.Fresh, not_and_or, not_not, not_not]

/-- What a call needs of the state is kept by a step that leaves its lock, its failed check and
the number of tokens. -/
theorem Call.Fits.keep (fits : c.Fits s j) (held : s.holder = some j → next.holder = some j)
    (stale : s.holder = some j → ¬ s.Fresh → ¬ next.Fresh) (more : s.cached ≤ next.cached) :
    c.Fits next j := by
  cases c with
  | waiting => trivial
  | holding => exact held fits
  | missed floor =>
      obtain ⟨own, missed, below⟩ := fits
      exact ⟨held own, stale own missed, below.trans more⟩
  | requesting floor request =>
      obtain ⟨own, missed, below⟩ := fits
      exact ⟨held own, stale own missed, below.trans more⟩
  | returned floor token => exact fits
  | raised => trivial

/-- One call changes, and the others keep what they need. -/
theorem Good.fits_set (good : Good s) (calls : next.calls = s.calls.set i c)
    (own : c.Fits next i)
    (others : ∀ (j : ℕ) (d : Call), j ≠ i → d.Fits s j → d.Fits next j) :
    ∀ (j : ℕ) (d : Call), next.calls[j]? = some d → d.Fits next j := by
  intro j d found
  rw [calls] at found
  by_cases same : j = i
  · subst same
    by_cases within : j < s.calls.length
    · rw [List.getElem?_set_self within] at found
      obtain rfl := Option.some.inj found
      exact own
    · rw [List.getElem?_eq_none (by rw [List.length_set]; exact Nat.le_of_not_lt within)] at found
      cases found
  · rw [List.getElem?_set_ne (Ne.symm same)] at found
    exact others j d same (good.calls j d found)

/-- The call that holds the lock changes, whatever else does. -/
theorem Good.fits_of_holder (good : Good s) (held : s.holder = some i)
    (calls : next.calls = s.calls.set i c) (own : c.Fits next i)
    (more : s.cached ≤ next.cached) :
    ∀ (j : ℕ) (d : Call), next.calls[j]? = some d → d.Fits next j := by
  refine good.fits_set calls own fun j d other fits => ?_
  have not_holder : s.holder ≠ some j := fun also =>
    other (Option.some.inj (also.symm.trans held))
  exact fits.keep (fun holder => absurd holder not_holder)
    (fun holder => absurd holder not_holder) more

/-! ## What a step does -/

/-- The steps, each with what it asks for. -/
inductive Takes (provider : Provider) (s : System) : Event → System → Prop where
  | elapse (d : ℚ) (forward : 0 ≤ d) : Takes provider s (.elapse d) { s with now := s.now + d }
  | invalidate :
      Takes provider s .invalidate
        { s with token := none, expiresAt := .num 0, dropped := s.cached }
  | call : Takes provider s .call { s with calls := s.calls ++ [.waiting] }
  | acquire (i : ℕ) (here : s.calls[i]? = some .waiting) (free : s.holder = none) :
      Takes provider s (.acquire i) { s.put i .holding with holder := some i }
  | check (i : ℕ) (here : s.calls[i]? = some .holding) : Takes provider s (.check i) (s.check i)
  | send (i floor : ℕ) (here : s.calls[i]? = some (.missed floor)) :
      Takes provider s (.send i) (s.put i (.requesting floor (tokenRequest provider.settings)))
  | answer (i floor : ℕ) (request : Request) (reply : Reply)
      (here : s.calls[i]? = some (.requesting floor request)) :
      Takes provider s (.answer i reply) (s.answered provider i floor reply)
  | cancelWaiting (i : ℕ) (here : s.calls[i]? = some .waiting) :
      Takes provider s (.cancel i) (s.put i .raised)
  | cancelHolding (i : ℕ) (here : s.calls[i]? = some .holding) :
      Takes provider s (.cancel i) (s.leave i .raised)
  | cancelMissed (i floor : ℕ) (here : s.calls[i]? = some (.missed floor)) :
      Takes provider s (.cancel i) (s.leave i .raised)
  | cancelRequesting (i floor : ℕ) (request : Request)
      (here : s.calls[i]? = some (.requesting floor request)) :
      Takes provider s (.cancel i) (s.fail i)

theorem takes_of_step {event : Event} (taken : step provider s event = some next) :
    Takes provider s event next := by
  cases event with
  | elapse d =>
      rw [step] at taken
      split at taken
      · rename_i forward
        obtain rfl := Option.some.inj taken
        exact .elapse d forward
      · cases taken
  | invalidate =>
      obtain rfl := Option.some.inj taken
      exact .invalidate
  | call =>
      obtain rfl := Option.some.inj taken
      exact .call
  | acquire i =>
      rw [step] at taken
      split at taken
      · rename_i here free
        obtain rfl := Option.some.inj taken
        exact .acquire i here free
      · cases taken
  | check i =>
      rw [step] at taken
      split at taken
      · rename_i here
        obtain rfl := Option.some.inj taken
        exact .check i here
      · cases taken
  | send i =>
      rw [step] at taken
      split at taken
      · rename_i floor here
        obtain rfl := Option.some.inj taken
        exact .send i floor here
      · cases taken
  | answer i reply =>
      rw [step] at taken
      split at taken
      · rename_i floor request here
        obtain rfl := Option.some.inj taken
        exact .answer i floor request reply here
      · cases taken
  | cancel i =>
      rw [step] at taken
      split at taken
      · rename_i here
        obtain rfl := Option.some.inj taken
        exact .cancelWaiting i here
      · rename_i here
        obtain rfl := Option.some.inj taken
        exact .cancelHolding i here
      · rename_i floor here
        obtain rfl := Option.some.inj taken
        exact .cancelMissed i floor here
      · rename_i floor request here
        obtain rfl := Option.some.inj taken
        exact .cancelRequesting i floor request here
      · cases taken

/-- The check returns the cached token, or it fails. -/
theorem check_cases (s : System) (i : ℕ) :
    (∃ token, s.token = some token ∧ s.check i = s.leave i (.returned s.dropped token)) ∨
    (¬ s.Fresh ∧ s.check i = s.put i (.missed s.dropped)) := by
  cases cached : s.token with
  | none =>
      right
      refine ⟨fun fresh => fresh.1 cached, ?_⟩
      rw [System.check, cached]
  | some token =>
      cases before : (Seconds.num s.now).lt s.expiresAt with
      | true =>
          left
          refine ⟨token, rfl, ?_⟩
          simp only [System.check, cached, before, if_true]
      | false =>
          right
          refine ⟨fun fresh => fresh.2 before, ?_⟩
          simp only [System.check, cached, before, Bool.false_eq_true, if_false]

/-- A check that finds a fresh token fails not. -/
theorem check_of_not_fresh (missed : ¬ s.Fresh) : s.check i = s.put i (.missed s.dropped) := by
  cases cached : s.token with
  | none => rw [System.check, cached]
  | some token =>
      have reached : s.expiresAt.ReachedBy s.now := by
        rcases not_fresh_iff.mp missed with gone | reached
        · cases gone.symm.trans cached
        · exact reached
      rw [Seconds.ReachedBy] at reached
      simp only [System.check, cached, reached, Bool.false_eq_true, if_false]

/-- The request fails before it has changed anything or when the token is assigned already, or
the new token and its expiry are both in place. -/
theorem answered_cases (provider : Provider) (s : System) (i floor : ℕ) (reply : Reply) :
    s.answered provider i floor reply = s.fail i ∨
    (∃ text, s.answered provider i floor reply =
      ({ s with token := some ⟨text, s.cached⟩, cached := s.cached + 1 } : System).fail i) ∨
    (∃ text expiresAt, s.answered provider i floor reply =
      { s.leave i (.returned floor ⟨text, s.cached⟩) with
        token := some ⟨text, s.cached⟩, expiresAt, cached := s.cached + 1, failed := false }) := by
  cases reply with
  | raised => exact .inl rfl
  | payload accessToken expiresIn =>
      cases accessToken with
      | none => exact .inl rfl
      | some text =>
          cases expires : expiresIn.toFloat with
          | none =>
              refine .inr (.inl ⟨text, ?_⟩)
              simp only [System.answered, expires]
          | some x =>
              refine .inr (.inr ⟨text, Seconds.after s.now
                (x.sub provider.refreshLeewaySeconds).maxOne, ?_⟩)
              simp only [System.answered, expires, System.leave, System.put]

theorem Good.fail (good : Good s) (held : s.holder = some i) (missed : ¬ s.Fresh) :
    Good (s.fail i) := by
  refine ⟨good.clock, good.empty, good.serial, good.bounded, fun _ => missed, ?_⟩
  exact good.fits_of_holder held rfl trivial (Nat.le_refl _)

theorem Good.check (good : Good s) (here : s.calls[i]? = some .holding) : Good (s.check i) := by
  have held : s.holder = some i := good.calls i .holding here
  rcases check_cases s i with ⟨token, cached, returns⟩ | ⟨missed, waits⟩
  · rw [returns]
    refine ⟨good.clock, good.empty, good.serial, good.bounded, good.stale, ?_⟩
    exact good.fits_of_holder held rfl (good.serial token cached) (Nat.le_refl _)
  · rw [waits]
    refine ⟨good.clock, good.empty, good.serial, good.bounded, good.stale, ?_⟩
    exact good.fits_of_holder held rfl ⟨held, missed, good.bounded⟩ (Nat.le_refl _)

/-- The time a half-finished update leaves has been reached: it is what the check of the call
found expired, or what a provider without a token has. -/
theorem Good.reached_of_not_fresh (good : Good s) (missed : ¬ s.Fresh) :
    s.expiresAt.ReachedBy s.now := by
  rcases not_fresh_iff.mp missed with gone | reached
  · rw [good.empty gone]
    exact reachedBy_num.mpr good.clock
  · exact reached

theorem Good.answered {floor : ℕ} {request : Request} (good : Good s)
    (here : s.calls[i]? = some (.requesting floor request)) (reply : Reply) :
    Good (s.answered provider i floor reply) := by
  obtain ⟨held, missed, below⟩ := good.calls i _ here
  rcases answered_cases provider s i floor reply with
    fails | ⟨text, fails⟩ | ⟨text, expiresAt, returns⟩
  · rw [fails]
    exact good.fail held missed
  · rw [fails]
    have reached := good.reached_of_not_fresh missed
    have serial : ∀ token ∈ some (Token.mk text s.cached), s.dropped ≤ token.serial := by
      intro token member
      obtain rfl := Option.some.inj member
      exact good.bounded
    refine ⟨good.clock, nofun, serial, Nat.le_succ_of_le good.bounded,
      fun _ fresh => fresh.2 reached, ?_⟩
    exact good.fits_of_holder held rfl trivial (Nat.le_succ _)
  · rw [returns]
    have serial : ∀ token ∈ some (Token.mk text s.cached), s.dropped ≤ token.serial := by
      intro token member
      obtain rfl := Option.some.inj member
      exact good.bounded
    refine ⟨good.clock, nofun, serial, Nat.le_succ_of_le good.bounded, nofun, ?_⟩
    exact good.fits_of_holder held rfl below (Nat.le_succ _)

theorem Good.leave (good : Good s) (held : s.holder = some i) : Good (s.leave i .raised) := by
  refine ⟨good.clock, good.empty, good.serial, good.bounded, good.stale, ?_⟩
  exact good.fits_of_holder held rfl trivial (Nat.le_refl _)

theorem Good.step {event : Event} (good : Good s) (taken : step provider s event = some next) :
    Good next := by
  cases takes_of_step taken with
  | elapse d forward =>
      have later : s.now ≤ s.now + d := by linarith
      have still : ¬ s.Fresh → ¬ ({ s with now := s.now + d } : System).Fresh := by
        intro missed
        rcases not_fresh_iff.mp missed with gone | reached
        · exact not_fresh_iff.mpr (.inl gone)
        · exact not_fresh_iff.mpr (.inr (ReachedBy.mono later reached))
      refine ⟨good.clock.trans later, good.empty, good.serial, good.bounded,
        fun failed => still (good.stale failed), fun j d found => ?_⟩
      exact (good.calls j d found).keep id (fun _ => still) (Nat.le_refl _)
  | invalidate =>
      refine ⟨good.clock, fun _ => rfl, nofun, Nat.le_refl _, fun _ fresh => fresh.1 rfl, ?_⟩
      intro j d found
      exact (good.calls j d found).keep id (fun _ _ fresh => fresh.1 rfl) (Nat.le_refl _)
  | call =>
      refine ⟨good.clock, good.empty, good.serial, good.bounded, good.stale, fun j d found => ?_⟩
      rcases Nat.lt_trichotomy j s.calls.length with older | newest | beyond
      · rw [List.getElem?_append_left older] at found
        exact (good.calls j d found).keep id (fun _ => id) (Nat.le_refl _)
      · subst newest
        rw [List.getElem?_concat_length] at found
        obtain rfl := Option.some.inj found
        trivial
      · rw [List.getElem?_eq_none (by rw [List.length_append]; exact beyond)] at found
        cases found
  | acquire i here free =>
      refine ⟨good.clock, good.empty, good.serial, good.bounded, good.stale, ?_⟩
      refine good.fits_set rfl rfl fun j d _ fits => ?_
      exact fits.keep (fun held => nomatch held.symm.trans free) (fun _ => id) (Nat.le_refl _)
  | check i here => exact good.check here
  | send i floor here =>
      obtain ⟨held, missed, below⟩ := good.calls i _ here
      refine ⟨good.clock, good.empty, good.serial, good.bounded, good.stale, ?_⟩
      exact good.fits_of_holder held rfl ⟨held, missed, below⟩ (Nat.le_refl _)
  | answer i floor request reply here => exact good.answered here reply
  | cancelWaiting i here =>
      refine ⟨good.clock, good.empty, good.serial, good.bounded, good.stale, ?_⟩
      exact good.fits_set rfl trivial fun j d _ fits => fits.keep id (fun _ => id) (Nat.le_refl _)
  | cancelHolding i here => exact good.leave (good.calls i _ here)
  | cancelMissed i floor here => exact good.leave (good.calls i _ here).1
  | cancelRequesting i floor request here =>
      obtain ⟨held, missed, _⟩ := good.calls i _ here
      exact good.fail held missed

/-! ## What a step does to one call -/

/-- The number of tokens cached before the last `invalidate` before its check, once a call has
run its check. -/
def Call.floor : Call → Option ℕ
  | .missed floor => some floor
  | .requesting floor _ => some floor
  | .returned floor _ => some floor
  | _ => none

inductive Call.Moves (provider : Provider) (dropped i : ℕ) : Event → Call → Call → Prop where
  | acquired : Moves provider dropped i (.acquire i) .waiting .holding
  | hit (token : Token) : Moves provider dropped i (.check i) .holding (.returned dropped token)
  | missed : Moves provider dropped i (.check i) .holding (.missed dropped)
  | sent (floor : ℕ) :
      Moves provider dropped i (.send i) (.missed floor)
        (.requesting floor (tokenRequest provider.settings))
  | returned (floor : ℕ) (request : Request) (reply : Reply) (token : Token) :
      Moves provider dropped i (.answer i reply) (.requesting floor request)
        (.returned floor token)
  | failed (floor : ℕ) (request : Request) (reply : Reply) :
      Moves provider dropped i (.answer i reply) (.requesting floor request) .raised
  | cancelled (c : Call) : Moves provider dropped i (.cancel i) c .raised

/-- A step tells the provider to forget its tokens or not, and one call moves, or none. -/
theorem moves_of_step {event : Event} (taken : step provider s event = some next) :
    (next.dropped = s.dropped ∨ next.dropped = s.cached) ∧
    (next.calls = s.calls ∨ next.calls = s.calls ++ [.waiting] ∨
      ∃ i c c', s.calls[i]? = some c ∧ next.calls = s.calls.set i c' ∧
        Call.Moves provider s.dropped i event c c') := by
  cases takes_of_step taken with
  | elapse d forward => exact ⟨.inl rfl, .inl rfl⟩
  | invalidate => exact ⟨.inr rfl, .inl rfl⟩
  | call => exact ⟨.inl rfl, .inr (.inl rfl)⟩
  | acquire i here free => exact ⟨.inl rfl, .inr (.inr ⟨i, _, _, here, rfl, .acquired⟩)⟩
  | check i here =>
      rcases check_cases s i with ⟨token, _, returns⟩ | ⟨_, waits⟩
      · rw [returns]
        exact ⟨.inl rfl, .inr (.inr ⟨i, _, _, here, rfl, .hit token⟩)⟩
      · rw [waits]
        exact ⟨.inl rfl, .inr (.inr ⟨i, _, _, here, rfl, .missed⟩)⟩
  | send i floor here => exact ⟨.inl rfl, .inr (.inr ⟨i, _, _, here, rfl, .sent floor⟩)⟩
  | answer i floor request reply here =>
      rcases answered_cases provider s i floor reply with fails | ⟨_, fails⟩ | ⟨_, _, returns⟩
      · rw [fails]
        exact ⟨.inl rfl, .inr (.inr ⟨i, _, _, here, rfl, .failed floor request reply⟩)⟩
      · rw [fails]
        exact ⟨.inl rfl, .inr (.inr ⟨i, _, _, here, rfl, .failed floor request reply⟩)⟩
      · rw [returns]
        exact ⟨.inl rfl, .inr (.inr ⟨i, _, _, here, rfl, .returned floor request reply _⟩)⟩
  | cancelWaiting i here => exact ⟨.inl rfl, .inr (.inr ⟨i, _, _, here, rfl, .cancelled _⟩)⟩
  | cancelHolding i here => exact ⟨.inl rfl, .inr (.inr ⟨i, _, _, here, rfl, .cancelled _⟩)⟩
  | cancelMissed i floor here =>
      exact ⟨.inl rfl, .inr (.inr ⟨i, _, _, here, rfl, .cancelled _⟩)⟩
  | cancelRequesting i floor request here =>
      exact ⟨.inl rfl, .inr (.inr ⟨i, _, _, here, rfl, .cancelled _⟩)⟩

/-- The call a step is about moves, and every other stays as it is. -/
theorem call_of_step {event : Event} {d : Call} (taken : step provider s event = some next)
    (here : s.calls[j]? = some d) :
    next.calls[j]? = some d ∨
    ∃ d', next.calls[j]? = some d' ∧ Call.Moves provider s.dropped j event d d' := by
  rcases (moves_of_step taken).2 with same | longer | ⟨i, c, c', found, set, moves⟩
  · exact .inl (same ▸ here)
  · rw [longer, List.getElem?_append_left (List.getElem?_eq_some_iff.mp here).1]
    exact .inl here
  · by_cases same : i = j
    · subst same
      obtain rfl := Option.some.inj (found.symm.trans here)
      rw [set, List.getElem?_set_self (List.getElem?_eq_some_iff.mp here).1]
      exact .inr ⟨c', rfl, moves⟩
    · rw [set, List.getElem?_set_ne same]
      exact .inl here

/-- A new call waits. -/
theorem call_of_step_of_none {event : Event} {d : Call}
    (taken : step provider s event = some next) (absent : s.calls[j]? = none)
    (there : next.calls[j]? = some d) : d = .waiting := by
  rcases (moves_of_step taken).2 with same | longer | ⟨i, c, c', found, set, moves⟩
  · cases (same ▸ there : s.calls[j]? = some d).symm.trans absent
  · rw [longer, List.getElem?_append_right (List.getElem?_eq_none_iff.mp absent)] at there
    have member := List.mem_of_getElem? there
    exact List.mem_singleton.mp member
  · have outside : s.calls.length ≤ j := List.getElem?_eq_none_iff.mp absent
    rw [set, List.getElem?_eq_none (by rw [List.length_set]; exact outside)] at there
    cases there

theorem dropped_le_of_step {event : Event} (good : Good s)
    (taken : step provider s event = some next) : s.dropped ≤ next.dropped := by
  rcases (moves_of_step taken).1 with same | raised
  · exact Nat.le_of_eq same.symm
  · exact raised ▸ good.bounded

/-! ## What holds of a run -/

/-- A call that runs its check from now on does so after `n` tokens were cached and dropped. -/
structure Since (n i : ℕ) (s : System) : Prop where
  good : Good s
  dropped : n ≤ s.dropped
  floor : ∀ c : Call, s.calls[i]? = some c → ∀ floor ∈ c.floor, n ≤ floor

theorem Call.Moves.floor {n dropped : ℕ} {event : Event} {c' : Call}
    (moves : Call.Moves provider dropped i event c c') (later : n ≤ dropped)
    (before : ∀ floor ∈ c.floor, n ≤ floor) : ∀ floor ∈ c'.floor, n ≤ floor := by
  cases moves with
  | acquired => exact nofun
  | hit token =>
      intro floor member
      obtain rfl := Option.some.inj member
      exact later
  | missed =>
      intro floor member
      obtain rfl := Option.some.inj member
      exact later
  | sent floor => exact before
  | returned floor request reply token => exact before
  | failed floor request reply => exact nofun
  | cancelled c => exact nofun

theorem Since.step {n : ℕ} {event : Event} (since : Since n i s)
    (taken : step provider s event = some next) : Since n i next := by
  refine ⟨since.good.step taken, since.dropped.trans (dropped_le_of_step since.good taken), ?_⟩
  intro c there
  cases here : s.calls[i]? with
  | none =>
      obtain rfl := call_of_step_of_none taken here there
      exact nofun
  | some d =>
      rcases call_of_step taken here with same | ⟨d', moved, moves⟩
      · obtain rfl := Option.some.inj (same.symm.trans there)
        exact since.floor _ here
      · obtain rfl := Option.some.inj (moved.symm.trans there)
        exact moves.floor since.dropped (since.floor d here)

/-- At most one request is in flight. -/
def AtMostOneInFlight (s : System) : Prop :=
  ∀ (i j floor floor' : ℕ) (request request' : Request),
    s.calls[i]? = some (Call.requesting floor request) →
    s.calls[j]? = some (Call.requesting floor' request') → i = j

/-- A request is sent only if no token is cached or the clock has reached `_expires_at`. -/
def SentForAReason (provider : Provider) (s : System) (event : Event) : Prop :=
  ∀ i next, event = .send i → step provider s event = some next →
    s.token = none ∨ s.expiresAt.ReachedBy s.now

/-- After a failed request, and until one succeeds, no check returns a token. -/
def Retried (provider : Provider) (s : System) (event : Event) : Prop :=
  ∀ i next, s.failed = true → event = .check i → step provider s event = some next →
    ∃ floor, next.calls[i]? = some (Call.missed floor)

/-- A call whose check failed sends its request, unless it is cancelled before. -/
def Sends (provider : Provider) (s : System) (event : Event) : Prop :=
  ∀ (i floor : ℕ) (next : System), s.calls[i]? = some (Call.missed floor) →
    step provider s event = some next →
    next.calls[i]? = some (Call.missed floor) ∨
    next.calls[i]? = some (Call.requesting floor (tokenRequest provider.settings)) ∨
    (event = .cancel i ∧ next.calls[i]? = some Call.raised)

/-- No call whose check comes after an `invalidate` returns a token that was cached before. -/
def NeverReturnsDropped (provider : Provider) (start : System) (events : List Event) : Prop :=
  ∀ before after s last, events = before ++ .invalidate :: after →
    exec (step provider) start before = some s → exec (step provider) start events = some last →
    ∀ i : ℕ, (∀ c : Call, s.calls[i]? = some c → c.floor = none) →
    ∀ floor token, last.calls[i]? = some (Call.returned floor token) → s.cached ≤ token.serial

theorem Good.atMostOneInFlight (good : Good s) : AtMostOneInFlight s := by
  intro i j floor floor' request request' first second
  have held := (good.calls i _ first).1
  have also := (good.calls j _ second).1
  exact Option.some.inj (held.symm.trans also)

theorem Good.sentForAReason (good : Good s) (event : Event) :
    SentForAReason provider s event := by
  rintro i next rfl taken
  cases takes_of_step taken with
  | send i floor here => exact not_fresh_iff.mp (good.calls i _ here).2.1

theorem Good.retried (good : Good s) (event : Event) : Retried provider s event := by
  rintro i next failed rfl taken
  cases takes_of_step taken with
  | check i here =>
      rw [check_of_not_fresh (good.stale failed)]
      exact ⟨s.dropped, List.getElem?_set_self (List.getElem?_eq_some_iff.mp here).1⟩

theorem sends (s : System) (event : Event) : Sends provider s event := by
  intro i floor next here taken
  rcases call_of_step taken here with same | ⟨d', moved, moves⟩
  · exact .inl same
  · cases moves with
    | sent floor => exact .inr (.inl moved)
    | cancelled c => exact .inr (.inr ⟨rfl, moved⟩)

theorem Good.neverReturnsDropped {start : System} {events : List Event} (good : Good start) :
    NeverReturnsDropped provider start events := by
  intro before after s last split first run i unchecked floor token returned
  have reached : Good s :=
    exec_invariant_always (fun _ _ _ good taken => good.step taken) first good
  rw [split, exec_append_of_eq_some first] at run
  obtain ⟨next, taken, rest⟩ := exec_cons_eq_some.mp run
  have since : Since s.cached i next := by
    refine ⟨reached.step taken, ?_, ?_⟩
    · obtain rfl := Option.some.inj taken
      exact Nat.le_refl _
    · obtain rfl := Option.some.inj taken
      intro c here floor member
      rw [unchecked c here] at member
      cases member
  have ends : Since s.cached i last :=
    exec_invariant_always (fun _ _ _ since taken => since.step taken) rest since
  exact (ends.floor _ returned floor rfl).trans (ends.good.calls i _ returned)

/-- What the provider guarantees of a run. -/
structure Sound (provider : Provider) (start : System) (events : List Event) : Prop where
  single : EveryState (step provider) AtMostOneInFlight start events
  reasons : EveryStep (step provider) (SentForAReason provider) start events
  dropped : NeverReturnsDropped provider start events
  retried : EveryStep (step provider) (Retried provider) start events
  sent : EveryStep (step provider) (Sends provider) start events

theorem good_start {now : ℚ} (clock : 0 ≤ now) : Good { now } :=
  ⟨clock, fun _ => rfl, nofun, Nat.le_refl _, nofun, nofun⟩

/-- **The service token provider is sound**, for every interleaving of its callers, of
`invalidate` and of the clock, and every answer to its requests. The clock is never negative. -/
theorem provider_sound (provider : Provider) {now : ℚ} (clock : 0 ≤ now) (events : List Event) :
    Sound provider { now } events := by
  have start := good_start clock
  have always : EveryStep (step provider) (fun _ _ => True) { now } events :=
    everyStep_of_forall_mem (fun _ _ _ => trivial) _
  have kept : ∀ s event next, True → Good s → step provider s event = some next → Good next :=
    fun _ _ _ _ good taken => good.step taken
  refine ⟨?_, ?_, start.neverReturnsDropped, ?_, ?_⟩
  · exact (everyState_of_preserved kept always start).mono fun _ good => good.atMostOneInFlight
  · exact everyStep_of_invariant kept (fun _ event _ good => good.sentForAReason event) always start
  · exact everyStep_of_invariant kept (fun _ event _ good => good.retried event) always start
  · exact everyStep_of_forall_mem (fun event _ s => sends s event) _

/-- A request whose `expires_in` is no number leaves its token behind, and the next call sends
another one: its answer arrives after an `invalidate`. -/
theorem provider_sound_half_finished :
    exec (step ⟨⟨"https://sso/token", "api", "secret", none⟩, .num 30⟩) { now := 5 }
      [.call, .acquire 0, .check 0, .send 0, .answer 0 (.payload (some "t1") .notNumeric), .call,
        .acquire 1, .check 1, .send 1, .invalidate, .answer 1 (.payload (some "t2") .missing)] =
      some ⟨5, some ⟨"t2", 1⟩, .num 35, none, [.raised, .returned 0 ⟨"t2", 1⟩], 2, 1, false⟩ ∧
    Sound ⟨⟨"https://sso/token", "api", "secret", none⟩, .num 30⟩ { now := 5 }
      [.call, .acquire 0, .check 0, .send 0, .answer 0 (.payload (some "t1") .notNumeric), .call,
        .acquire 1, .check 1, .send 1, .invalidate, .answer 1 (.payload (some "t2") .missing)] :=
  ⟨by decide +kernel, provider_sound _ (by norm_num) _⟩

end PyCommon.ServiceToken
