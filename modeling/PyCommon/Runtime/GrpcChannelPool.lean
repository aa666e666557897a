import Mathlib.Data.List.Nodup
import PyCommon.Lib.Runs

/-!
# The gRPC channel pool

`GrpcChannelPool` keeps one channel for each target behind one lock.
`get_channel` has no await between taking the lock and releasing it, so it is one
step, taken when the lock is free. `aclose` holds the lock while it awaits the close
of each channel in turn; a close that raises is logged, and a cancellation leaves
the loop with the pool as it was.

The pool looks a channel up by its target and reads the credentials of the call only
when it creates one. What a caller gets is therefore settled by the first call for
the target since the pool was last cleared, and by its own call only if it is that
one (`handed_as_settled`). A caller that asks for a secure channel to a target
that is already pooled in clear text is handed the insecure one
(`secure_request_answered_in_clear`).
-/

set_option autoImplicit false

namespace PyCommon.GrpcChannelPool

open StepSystem

variable {Credentials Value Interceptor : Type}

/-! ## Channels and the pool -/

/-- What `__init__` leaves in `_options` and `_interceptors`. -/
structure Settings (Value Interceptor : Type) where
  options : List (String × Value)
  interceptors : List Interceptor

/-- An `aio.Channel`, with the arguments it was created with. The number tells
channels apart. -/
structure Channel (Credentials Value Interceptor : Type) where
  number : ℕ
  target : String
  credentials : Option Credentials
  options : List (String × Value)
  interceptors : Option (List Interceptor)
  deriving DecidableEq

/-- A channel made by `aio.secure_channel` is secure. -/
def Channel.isSecure (channel : Channel Credentials Value Interceptor) : Bool :=
  channel.credentials.isSome

/-- The pool. `closing` holds, while an `aclose` has the lock, the channels it has
yet to close; `closed` holds the numbers of the channels closed so far. -/
structure Pool (Credentials Value Interceptor : Type) where
  channels : List (String × Channel Credentials Value Interceptor) := []
  closing : Option (List (Channel Credentials Value Interceptor)) := none
  created : ℕ := 0
  closed : List ℕ := []
  deriving DecidableEq

/-- `self._interceptors or None`. -/
def Settings.interceptorsOrNone (cfg : Settings Value Interceptor) : Option (List Interceptor) :=
  if cfg.interceptors.isEmpty then none else some cfg.interceptors

/-- `aio.secure_channel` with credentials, `aio.insecure_channel` without. -/
def newChannel (cfg : Settings Value Interceptor) (number : ℕ) (target : String)
    (credentials : Option Credentials) : Channel Credentials Value Interceptor :=
  ⟨number, target, credentials, cfg.options, cfg.interceptorsOrNone⟩

/-- `get_channel`, under the lock. -/
def getChannel (cfg : Settings Value Interceptor) (pool : Pool Credentials Value Interceptor)
    (target : String) (credentials : Option Credentials) :
    Channel Credentials Value Interceptor × Pool Credentials Value Interceptor :=
  match pool.channels.lookup target with
  | some channel => (channel, pool)
  | none =>
      let channel := newChannel cfg pool.created target credentials
      (channel, { pool with
        channels := pool.channels ++ [(target, channel)]
        created := pool.created + 1 })

/-! ## Runs -/

/-- A `get_channel` that has the lock; an `aclose` that takes the lock, awaits the
close of one channel after another, which may fail, clears the pool and releases
the lock, or is cancelled during a close that may or may not have taken effect. -/
inductive Event (Credentials : Type) where
  | getChannel (target : String) (credentials : Option Credentials)
  | aclose
  | close (effective : Bool)
  | clear
  | cancel (effective : Bool)

def step (cfg : Settings Value Interceptor) (pool : Pool Credentials Value Interceptor) :
    Event Credentials → Option (Pool Credentials Value Interceptor)
  | .getChannel target credentials =>
      match pool.closing with
      | none => some (getChannel cfg pool target credentials).2
      | some _ => none
  | .aclose =>
      match pool.closing with
      | none => some { pool with closing := some (pool.channels.map Prod.snd) }
      | some _ => none
  | .close effective =>
      match pool.closing with
      | some (channel :: rest) =>
          some { pool with
            closing := some rest
            closed := if effective then channel.number :: pool.closed else pool.closed }
      | _ => none
  | .clear =>
      match pool.closing with
      | some [] => some { pool with channels := [], closing := none }
      | _ => none
  | .cancel effective =>
      match pool.closing with
      | some (channel :: _) =>
          some { pool with
            closing := none
            closed := if effective then channel.number :: pool.closed else pool.closed }
      | _ => none

/-- The channels the pool holds for the target that have not been closed. -/
def Pool.openChannels (pool : Pool Credentials Value Interceptor) (target : String) :
    List (Channel Credentials Value Interceptor) :=
  (pool.channels.map Prod.snd).filter fun channel =>
    channel.target = target ∧ channel.number ∉ pool.closed

/-! ## One channel for each target -/

/-- Every channel is held under its target, and under no other entry. -/
structure OnePerTarget (pool : Pool Credentials Value Interceptor) : Prop where
  named : ∀ entry ∈ pool.channels, entry.2.target = entry.1
  once : (pool.channels.map Prod.fst).Nodup

theorem onePerTarget_init : OnePerTarget ({} : Pool Credentials Value Interceptor) where
  named _ member := by cases member
  once := List.nodup_nil

theorem OnePerTarget.getChannel {cfg : Settings Value Interceptor}
    {pool : Pool Credentials Value Interceptor} (one : OnePerTarget pool) (target : String)
    (credentials : Option Credentials) :
    OnePerTarget (getChannel cfg pool target credentials).2 := by
  unfold GrpcChannelPool.getChannel
  cases found : pool.channels.lookup target with
  | some channel => exact one
  | none =>
      refine ⟨fun entry member => ?_, ?_⟩
      · rcases List.mem_append.mp member with old | new
        · exact one.named entry old
        · obtain rfl := List.mem_singleton.mp new
          rfl
      · simp only [List.map_append, List.map_cons, List.map_nil]
        refine List.nodup_append.mpr ⟨one.once, List.nodup_singleton target, ?_⟩
        intro key held other new
        obtain rfl := List.mem_singleton.mp new
        rintro rfl
        obtain ⟨entry, member, same⟩ := List.mem_map.mp held
        have absent := List.lookup_eq_none_iff.mp found entry member
        simp [same] at absent

/-! ## Who settled the channel of a target -/

/-- The choice of credentials that settled the channel of the target, after the
event: the first `get_channel` for it since the pool was last cleared. -/
def settledBy (target : String) (settled : Option (Option Credentials)) :
    Event Credentials → Option (Option Credentials)
  | .getChannel asked credentials =>
      if asked = target then some (settled.getD credentials) else settled
  | .clear => none
  | _ => settled

/-- The choice that settled the channel of the target in a run that starts with an
empty pool. -/
def settlement (target : String) (events : List (Event Credentials)) :
    Option (Option Credentials) :=
  events.foldl (settledBy target) none

/-- What an event does to the channels held: `get_channel` looks one up or adds one,
the end of `aclose` clears them, and nothing else touches them. -/
theorem step_cases {cfg : Settings Value Interceptor}
    {pool next : Pool Credentials Value Interceptor} {event : Event Credentials}
    (taken : step cfg pool event = some next) :
    (∃ target credentials, event = .getChannel target credentials ∧
        next = (getChannel cfg pool target credentials).2) ∨
      (event = .clear ∧ next.channels = []) ∨
      ((∀ target settled, settledBy target settled event = settled) ∧
        next.channels = pool.channels) := by
  cases event with
  | getChannel target credentials =>
      simp only [step] at taken
      split at taken
      · exact .inl ⟨target, credentials, rfl, (Option.some.inj taken).symm⟩
      · cases taken
  | clear =>
      simp only [step] at taken
      split at taken
      · obtain rfl := Option.some.inj taken
        exact .inr (.inl ⟨rfl, rfl⟩)
      · cases taken
  | aclose =>
      simp only [step] at taken
      split at taken
      · obtain rfl := Option.some.inj taken
        exact .inr (.inr ⟨fun _ _ => rfl, rfl⟩)
      · cases taken
  | close effective =>
      simp only [step] at taken
      split at taken
      · obtain rfl := Option.some.inj taken
        exact .inr (.inr ⟨fun _ _ => rfl, rfl⟩)
      · cases taken
  | cancel effective =>
      simp only [step] at taken
      split at taken
      · obtain rfl := Option.some.inj taken
        exact .inr (.inr ⟨fun _ _ => rfl, rfl⟩)
      · cases taken

theorem OnePerTarget.step {cfg : Settings Value Interceptor}
    {pool next : Pool Credentials Value Interceptor} {event : Event Credentials}
    (one : OnePerTarget pool) (taken : step cfg pool event = some next) : OnePerTarget next := by
  rcases step_cases taken with ⟨target, credentials, rfl, rfl⟩ | ⟨-, cleared⟩ | ⟨-, kept⟩
  · exact one.getChannel target credentials
  · refine ⟨?_, ?_⟩
    · rw [cleared]
      intro entry member
      cases member
    · rw [cleared]
      exact List.nodup_nil
  · refine ⟨?_, ?_⟩
    · rw [kept]
      exact one.named
    · rw [kept]
      exact one.once

theorem onePerTarget_of_run {cfg : Settings Value Interceptor}
    {pool : Pool Credentials Value Interceptor} {events : List (Event Credentials)}
    (run : exec (step cfg) {} events = some pool) : OnePerTarget pool :=
  exec_invariant_always (fun _ _ _ one taken => one.step taken) run onePerTarget_init

/-- With one entry for each target, no target has two open channels. -/
theorem OnePerTarget.openChannels_le {pool : Pool Credentials Value Interceptor}
    (one : OnePerTarget pool) (target : String) : (pool.openChannels target).length ≤ 1 := by
  have entries : pool.channels.countP (fun entry => entry.1 = target) ≤ 1 := by
    have counted := List.nodup_iff_count_le_one.mp one.once target
    rw [List.count, List.countP_map] at counted
    refine Nat.le_trans (Nat.le_of_eq (List.countP_congr fun entry _ => ?_)) counted
    simp
  refine Nat.le_trans ?_ entries
  rw [Pool.openChannels, List.filter_map, List.length_map, ← List.countP_eq_length_filter]
  refine List.countP_mono_left fun entry member held => ?_
  have named := one.named entry member
  simp only [Function.comp_apply, Bool.decide_and, Bool.and_eq_true, decide_eq_true_eq] at held
  simpa [named] using held.1

/-- The choice recorded in the channel the pool holds for the target, if any. -/
def Pool.choice (pool : Pool Credentials Value Interceptor) (target : String) :
    Option (Option Credentials) :=
  (pool.channels.lookup target).map (·.credentials)

theorem getChannel_choice (cfg : Settings Value Interceptor)
    (pool : Pool Credentials Value Interceptor) (target asked : String)
    (credentials : Option Credentials) :
    (getChannel cfg pool asked credentials).2.choice target =
      settledBy target (pool.choice target) (.getChannel asked credentials) := by
  simp only [getChannel, Pool.choice, settledBy]
  by_cases same : asked = target
  · obtain rfl := same
    cases found : pool.channels.lookup asked with
    | some channel => simp [found]
    | none => simp [List.lookup_append, found, newChannel]
  · rw [if_neg same]
    cases found : pool.channels.lookup asked with
    | some channel => rfl
    | none =>
        have other : (target == asked) = false := by
          simpa using fun reversed => same (Eq.symm reversed)
        simp [List.lookup_append, List.lookup_cons, other]

/-- The channel held for a target records the choice that settled it. -/
theorem choice_of_run {cfg : Settings Value Interceptor} (target : String)
    {start pool : Pool Credentials Value Interceptor} {events : List (Event Credentials)}
    (run : exec (step cfg) start events = some pool) :
    pool.choice target = events.foldl (settledBy target) (start.choice target) := by
  induction events generalizing start with
  | nil =>
      obtain rfl := Option.some.inj run
      rfl
  | cons event events ih =>
      obtain ⟨next, taken, rest⟩ := exec_cons_eq_some.mp run
      have moved : next.choice target = settledBy target (start.choice target) event := by
        rcases step_cases taken with ⟨asked, credentials, rfl, rfl⟩ | ⟨rfl, cleared⟩ | ⟨same, kept⟩
        · exact getChannel_choice cfg start target asked credentials
        · rw [Pool.choice, cleared]
          rfl
        · rw [same, Pool.choice, kept, Pool.choice]
      rw [ih rest, moved, List.foldl_cons]

theorem getChannel_credentials (cfg : Settings Value Interceptor)
    (pool : Pool Credentials Value Interceptor) (target : String)
    (credentials : Option Credentials) :
    (getChannel cfg pool target credentials).1.credentials =
      (pool.choice target).getD credentials := by
  unfold getChannel Pool.choice
  cases found : pool.channels.lookup target with
  | some channel => rfl
  | none => rfl

theorem OnePerTarget.getChannel_target {pool : Pool Credentials Value Interceptor}
    (one : OnePerTarget pool) (cfg : Settings Value Interceptor) (target : String)
    (credentials : Option Credentials) :
    (GrpcChannelPool.getChannel cfg pool target credentials).1.target = target := by
  unfold GrpcChannelPool.getChannel
  cases found : pool.channels.lookup target with
  | some channel =>
      obtain ⟨before, after, split, -⟩ := List.lookup_eq_some_iff.mp found
      refine one.named (target, channel) ?_
      rw [split]
      exact List.mem_append_right before List.mem_cons_self
  | none => rfl

/-- **What `get_channel` hands out.** After any run of the pool, a call is handed a
channel to its target, created with the credentials of the first call for the target
since the pool was last cleared, and with its own when there was none; so it is
secure exactly when that choice was. The pool never holds two open channels to one
target. -/
theorem handed_as_settled (cfg : Settings Value Interceptor)
    (events : List (Event Credentials)) (pool : Pool Credentials Value Interceptor)
    (run : exec (step cfg) {} events = some pool) (target : String) :
    (pool.openChannels target).length ≤ 1 ∧
      ∀ credentials,
        (getChannel cfg pool target credentials).1.target = target ∧
          (getChannel cfg pool target credentials).1.credentials =
            (settlement target events).getD credentials ∧
          (getChannel cfg pool target credentials).1.isSecure =
            ((settlement target events).getD credentials).isSome := by
  have one := onePerTarget_of_run run
  have choice : pool.choice target = settlement target events := choice_of_run target run
  refine ⟨one.openChannels_le target, fun credentials => ?_⟩
  have created := getChannel_credentials cfg pool target credentials
  rw [choice] at created
  refine ⟨one.getChannel_target cfg target credentials, created, ?_⟩
  rw [Channel.isSecure, created]

/-- A pool without options and interceptors. -/
def plain : Settings ℕ ℕ := ⟨[], []⟩

/-- The second caller of a target pooled with credentials gets the secure channel
without asking for it, and after the pool is closed the next caller settles it anew. -/
theorem handed_secure_unasked :
    ∃ pool : Pool Unit ℕ ℕ,
      exec (step plain) {} [.getChannel "user-service:50051" none, .aclose, .close true, .clear,
        .getChannel "user-service:50051" (some ())] = some pool ∧
      (getChannel plain pool "user-service:50051" none).1.isSecure = true := by
  obtain ⟨pool, run⟩ : ∃ pool : Pool Unit ℕ ℕ,
      exec (step plain) {} [.getChannel "user-service:50051" none, .aclose, .close true, .clear,
        .getChannel "user-service:50051" (some ())] = some pool := ⟨_, rfl⟩
  exact ⟨pool, run, ((handed_as_settled plain _ pool run "user-service:50051").2 none).2.2⟩

/-- **A caller that asks for TLS is handed a channel in clear text.** One call pools
the target without credentials; the next passes credentials and is returned the
insecure channel. -/
theorem secure_request_answered_in_clear :
    ∃ pool : Pool Unit ℕ ℕ,
      exec (step plain) {} [.getChannel "user-service:50051" none] = some pool ∧
      pool.closing = none ∧
      (getChannel plain pool "user-service:50051" (some ())).1.isSecure = false :=
  ⟨_, rfl, rfl, rfl⟩

end PyCommon.GrpcChannelPool
