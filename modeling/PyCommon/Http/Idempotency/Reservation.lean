import PyCommon.Http.Idempotency.Solo

/-!
# Who owns a key

`SET NX` gives a key to one request, and until it releases or records it acts as the
owner of the key: it may delete or overwrite what the key holds without looking. The
marker carries no name, so nothing but the history of the key makes the owner right.

The invariant is that every owner finds its own marker (`Owned`). An owner that was cut
off while its last command was on the way counts as one until the server has executed
that command. The invariant survives every step but two. A marker may expire while its
request is at work, and a `GET` after a lost `SET NX` may find that the key was released
in between; the request then starts the app as an owner without a marker. In runs
without these two, a command only ever changes the marker of the request that sent it
(`only_own_marker_changes`). When in addition Redis does not fail and no key expires, at
most one request at a time runs the app for a key, and none does once a response is
recorded (`single_execution`).

Both steps happen, and break both laws (`released_between_set_and_get_runs_twice`,
`late_finisher_deletes_marker`).
-/

set_option autoImplicit false

namespace PyCommon.Idempotency

open StepSystem

variable {cfg : IdempotencyMiddleware} {sha256 : Bytes → String}

/-! ## Owners -/

/-- The phases in which a call takes its key to be its own. -/
def Phase.owner : Phase → Bool
  | .setReply won => won
  | .running => true
  | .deleting _ => true
  | .storing _ => true
  | _ => false

theorem owner_of_over {phase : Phase} (finished : phase.over) : phase.owner = false := by
  cases phase <;> first | rfl | cases finished

theorem claimFailed_owner (now : ℕ) (p : Proc) (e : PyExc) :
    (p.claimFailed cfg now e).owner = false :=
  owner_of_over (claimFailed_over cfg now p e)

variable (cfg) in
theorem begin_phase (request : Request) :
    (request.begin cfg).phase.owner = false ∧
      ∀ raw, (request.begin cfg).phase ≠ .getReply raw := by
  unfold Request.begin
  cases dispatch cfg request.scope with
  | error e => exact ⟨rfl, fun raw entered => by cases entered⟩
  | ok way => cases way <;> exact ⟨rfl, fun raw entered => by cases entered⟩

/-- A call becomes an owner only by executing `SET NX`, or by going on from a `GET`
that found nothing. -/
theorem owner_of_resumes {now : ℕ} {fault : Option PyExc} {p q : Proc}
    (moves : p.Resumes cfg sha256 now fault q) (owner : q.phase.owner) :
    p.phase.owner ∨ p.phase = .getReply none := by
  cases moves with
  | won here => exact .inl (by rw [here]; rfl)
  | absent here => exact .inr here
  | awaited here taken => exact .inl (by rw [here]; rfl)
  | appEnded here atEnd => exact .inl (by rw [here]; rfl)
  | unrecorded here taken => rw [(await_frame taken).1, here] at owner; cases owner
  | claimFailed here => rw [claimFailed_owner] at owner; cases owner
  | _ => cases owner

variable (cfg sha256) in
/-- The key of `p` holds the marker that request `id` placed. -/
def Sys.HoldsMarker (s : Sys) (id : ℕ) (p : Proc) : Prop :=
  ∃ slot ∈ s.store (p.redisKey cfg sha256),
    slot.value.writer = id ∧ slot.value.value.isDone = false

instance (s : Sys) (id : ℕ) (p : Proc) : Decidable (s.HoldsMarker cfg sha256 id p) :=
  inferInstanceAs (Decidable (∃ slot ∈ s.store (p.redisKey cfg sha256),
    slot.value.writer = id ∧ slot.value.value.isDone = false))

/-- The call stands at `p`, or stood there when it left a command behind that the server
has not executed. -/
def Sys.At (s : Sys) (id : ℕ) (p : Proc) : Prop :=
  s.procs id = some p ∨ s.abandoned id = some p

variable (cfg sha256) in
/-- Every owner finds its own marker under its key, and no call is about to go on
without having placed one. -/
structure Owned (s : Sys) : Prop where
  marker : ∀ id p, s.At id p → p.phase.owner → s.HoldsMarker cfg sha256 id p
  reserved : ∀ id p, s.procs id = some p → p.phase ≠ .getReply none
  behind : Behind s

theorem owned_of_fresh {s : Sys} (fresh : s.Fresh) : Owned cfg sha256 s where
  marker id p there := by
    rcases there with there | there
    · cases (fresh id).1.symm.trans there
    · cases (fresh id).2.symm.trans there
  reserved id p there := by cases (fresh id).1.symm.trans there
  behind := behind_of_quiet fun id => (fresh id).2

/-- Two owners of one key are one request. -/
theorem Owned.unique {s : Sys} (owned : Owned cfg sha256 s) {first second : ℕ} {p q : Proc}
    (hp : s.At first p) (hq : s.At second q) (owner : p.phase.owner)
    (other : q.phase.owner) (same : p.redisKey cfg sha256 = q.redisKey cfg sha256) :
    first = second := by
  obtain ⟨slot, held, rfl, _⟩ := owned.marker first p hp owner
  obtain ⟨slot', also, rfl, _⟩ := owned.marker second q hq other
  rw [same] at held
  obtain rfl := Option.some.inj (held.symm.trans also)
  rfl

/-! ## The steps that keep ownership -/

variable (cfg sha256) in
/-- No `GET` after a lost `SET NX` finds the key absent. -/
def FindsRecord (s : Sys) : Label → Prop
  | .redis id => ∀ p ∈ s.procs id, p.phase = .getting → s.store (p.redisKey cfg sha256) ≠ none
  | _ => True

instance (s : Sys) (l : Label) : Decidable (FindsRecord cfg sha256 s l) :=
  match l with
  | .redis id => inferInstanceAs (Decidable
      (∀ p ∈ s.procs id, p.phase = .getting → s.store (p.redisKey cfg sha256) ≠ none))
  | .arrive _ _ | .elapse _ | .timeout _ | .resume _ _ | .late _ => isTrue trivial

variable (cfg sha256) in
/-- No marker expires while the request that placed it owns the key, or its `DEL` or
`SET` may still be executed. -/
def MarkersOutlive (s : Sys) : Label → Prop
  | .elapse ms => ∀ id p slot, s.At id p → p.phase.owner →
      s.store (p.redisKey cfg sha256) = some slot → slot.value.writer = id →
      slot.value.value.isDone = false → s.now + ms < slot.deadline
  | _ => True

/-- A marker is found as long as the store is the same. -/
theorem Sys.HoldsMarker.congr {s t : Sys} {id : ℕ} {p : Proc} (held : s.HoldsMarker cfg sha256 id p)
    (store : t.store = s.store) : t.HoldsMarker cfg sha256 id p := by
  unfold Sys.HoldsMarker
  rw [store]
  exact held

/-- A command that changes what a key holds is the command of its only owner, or
finds the key free; so it leaves every other owner its marker. -/
theorem Owned.kept {s : Sys} (owned : Owned cfg sha256 s) {id other : ℕ} {p q : Proc}
    {store : Store} {phase : Phase} (here : s.At id p)
    (does : p.Executes cfg sha256 s.now id s.store store phase) (different : other ≠ id)
    (there : s.At other q) (owner : q.phase.owner) :
    store (q.redisKey cfg sha256) = s.store (q.redisKey cfg sha256) := by
  cases does with
  | win sent free =>
      refine Keyspace.write_of_ne fun same => ?_
      obtain ⟨slot, held, _⟩ := owned.marker other q there owner
      rw [same] at held
      exact absurd (free.symm.trans held) (by simp)
  | lose sent taken => rfl
  | get sent => rfl
  | delete sent =>
      refine Keyspace.delete_of_ne fun same => different ?_
      exact owned.unique there here owner (by rw [sent]; rfl) same
  | store sent =>
      refine Keyspace.write_of_ne fun same => different ?_
      exact owned.unique there here owner (by rw [sent]; rfl) same

theorem Owned.executes {s : Sys} (owned : Owned cfg sha256 s) {id : ℕ} {p : Proc} {store : Store}
    {phase : Phase} (there : s.procs id = some p)
    (does : p.Executes cfg sha256 s.now id s.store store phase)
    (finds : p.phase = .getting → s.store (p.redisKey cfg sha256) ≠ none) :
    (∀ other q, ({ s.put id { p with phase } with store } : Sys).At other q → q.phase.owner →
        Sys.HoldsMarker cfg sha256 { s.put id { p with phase } with store } other q) ∧
      ∀ other q, (s.put id { p with phase }).procs other = some q → q.phase ≠ .getReply none := by
  have others : ∀ other q, other ≠ id → s.At other q → q.phase.owner →
      Sys.HoldsMarker cfg sha256 { s.put id { p with phase } with store } other q := by
    intro other q different before owner
    obtain ⟨slot, held, own⟩ := owned.marker other q before owner
    exact ⟨slot, (owned.kept (.inl there) does different before owner).trans held, own⟩
  constructor
  · rintro other q (after | left) owner
    · rcases procs_put_cases after with ⟨rfl, rfl⟩ | ⟨different, before⟩
      · cases does with
        | win sent free => exact ⟨_, Keyspace.write_self .., rfl, rfl⟩
        | _ => cases owner
      · exact others other q different (.inl before) owner
    · have left : s.abandoned other = some q := left
      by_cases same : other = id
      · subst same
        exact absurd does (not_executes_of_over (owned.behind.over left there))
      · exact others other q same (.inr left) owner
  · intro other q after
    rcases procs_put_cases after with ⟨rfl, rfl⟩ | ⟨_, before⟩
    · intro entered
      cases does with
      | get sent =>
          simp only [Phase.getReply.injEq, Option.map_eq_none_iff] at entered
          exact finds sent entered
      | _ => cases entered
    · exact owned.reserved other q before

/-- An abandoned command leaves every owner its marker as well. -/
theorem Owned.late {s : Sys} (owned : Owned cfg sha256 s) {id : ℕ} {p : Proc} {store : Store}
    {phase : Phase} (left : s.abandoned id = some p)
    (does : p.Executes cfg sha256 s.now id s.store store phase) (other : ℕ) (q : Proc)
    (after : s.procs other = some q ∨ Function.update s.abandoned id none other = some q)
    (owner : q.phase.owner) :
    ∃ slot ∈ store (q.redisKey cfg sha256),
      slot.value.writer = other ∧ slot.value.value.isDone = false := by
  have apart : other ≠ id ∧ s.At other q := by
    by_cases same : other = id
    · subst same
      rcases after with there | after
      · rw [owner_of_over (owned.behind.over left there)] at owner
        cases owner
      · cases (Function.update_self ..).symm.trans after
    · refine ⟨same, after.imp_right fun after => ?_⟩
      exact (Function.update_of_ne same ..).symm.trans after
  obtain ⟨slot, held, own⟩ := owned.marker other q apart.2 owner
  exact ⟨slot, (owned.kept (.inr left) does apart.1 apart.2 owner).trans held, own⟩

/-- A call moves without Redis. It keeps its marker if it is an owner then, and it has not
found its key absent. -/
theorem Owned.put {s t : Sys} (owned : Owned cfg sha256 s) {id : ℕ} {q : Proc}
    (store : t.store = s.store) (procs : t.procs = s.procs)
    (abandoned : ∀ other r, t.abandoned other = some r → s.At other r)
    (marker : q.phase.owner → s.HoldsMarker cfg sha256 id q)
    (reserved : q.phase ≠ .getReply none) (behind : Behind (t.put id q)) :
    Owned cfg sha256 (t.put id q) := by
  refine ⟨fun other r there owner => ?_, fun other r after => ?_, behind⟩
  · have held : s.HoldsMarker cfg sha256 other r := by
      rcases there with after | left
      · rcases procs_put_cases after with ⟨rfl, rfl⟩ | ⟨_, before⟩
        · exact marker owner
        · rw [procs] at before
          exact owned.marker other r (.inl before) owner
      · exact owned.marker other r (abandoned other r left) owner
    exact held.congr store
  · rcases procs_put_cases after with ⟨rfl, rfl⟩ | ⟨_, before⟩
    · exact reserved
    · rw [procs] at before
      exact owned.reserved other r before

theorem owned_step {s next : Sys} {l : Label} (finds : FindsRecord cfg sha256 s l)
    (outlive : MarkersOutlive cfg sha256 s l) (owned : Owned cfg sha256 s)
    (taken : step cfg sha256 s l = some next) : Owned cfg sha256 next := by
  have behind : Behind next := behind_step owned.behind taken
  cases l with
  | arrive id request =>
      obtain ⟨_, rfl⟩ := step_arrive.mp taken
      obtain ⟨idle, noReply⟩ := begin_phase cfg request
      refine owned.put rfl rfl (fun _ _ left => .inr left) (fun owner => ?_) (noReply none) behind
      rw [idle] at owner
      cases owner
  | elapse ms =>
      obtain rfl := Option.some.inj taken
      refine ⟨fun id p there owner => ?_, owned.reserved, behind⟩
      obtain ⟨slot, held, own, marker⟩ := owned.marker id p there owner
      exact ⟨slot, Keyspace.evict_eq_some.mpr
        ⟨held, outlive id p slot there owner held own marker⟩, own, marker⟩
  | timeout id =>
      obtain ⟨p, there, _, rfl⟩ := step_timeout.mp taken
      exact owned.put rfl rfl (fun _ _ left => .inr left) (owned.marker id p (.inl there))
        (owned.reserved id p there) behind
  | resume id fault =>
      obtain ⟨p, q, there, _, moved, rfl⟩ := step_resume.mp taken
      have moves := resumes_of_resume moved
      refine owned.put (leave_store s id p) (leave_procs s id p) (fun other r left => ?_)
        (fun owner => ?_) (ne_getReply_of_resumes moves) behind
      · rcases abandoned_leave_cases left with ⟨rfl, rfl, _⟩ | before
        · exact .inl there
        · exact .inr before
      · rcases owner_of_resumes moves owner with before | loose
        · have held := owned.marker id p (.inl there) before
          unfold Sys.HoldsMarker at held ⊢
          rw [redisKey_of_resumes moves]
          exact held
        · exact absurd loose (owned.reserved id p there)
  | redis id =>
      obtain ⟨p, _, store, there, moved, rfl⟩ := step_redis.mp taken
      obtain ⟨phase, does, rfl⟩ := executes_of_command moved
      obtain ⟨marker, reserved⟩ := owned.executes there does (finds p there)
      exact ⟨marker, reserved, behind⟩
  | late id =>
      obtain ⟨p, _, store, left, moved, rfl⟩ := step_late.mp taken
      obtain ⟨phase, does, rfl⟩ := executes_of_command moved
      exact ⟨owned.late left does, owned.reserved, behind⟩

/-! ## Only the owner changes its marker -/

/-- What a step changes of what keys hold: a key may expire, and a request may
change the marker it placed itself. -/
def ChangesOwnMarker (s next : Sys) (l : Label) : Prop :=
  ∀ key slot, s.store key = some slot → next.store key ≠ some slot →
    (∃ ms, l = .elapse ms) ∨
      (l = .redis slot.value.writer ∨ l = .late slot.value.writer) ∧
        slot.value.value.isDone = false

/-- A command changes no slot but the marker of its own request. -/
theorem Owned.own_of_changed {s : Sys} (owned : Owned cfg sha256 s) {id : ℕ} {p : Proc}
    {store : Store} {phase : Phase} (here : s.At id p)
    (does : p.Executes cfg sha256 s.now id s.store store phase) {key : String}
    {slot : Keyspace.Slot Held} (held : s.store key = some slot)
    (changed : store key ≠ some slot) :
    slot.value.writer = id ∧ slot.value.value.isDone = false := by
  -- a key that an owner deletes or overwrites holds the owner's marker
  have own : p.phase.owner → key = p.redisKey cfg sha256 →
      slot.value.writer = id ∧ slot.value.value.isDone = false := by
    rintro owner rfl
    obtain ⟨slot', marker, rfl, inFlight⟩ := owned.marker id p here owner
    obtain rfl := Option.some.inj (held.symm.trans marker)
    exact ⟨rfl, inFlight⟩
  cases does with
  | win sent free =>
      refine absurd ?_ changed
      by_cases same : key = p.redisKey cfg sha256
      · rw [same, free] at held
        cases held
      · exact (Keyspace.write_of_ne same).trans held
  | lose sent there => exact absurd held changed
  | get sent => exact absurd held changed
  | delete sent =>
      refine own (by rw [sent]; rfl) ?_
      by_contra other
      exact changed ((Keyspace.delete_of_ne other).trans held)
  | store sent =>
      refine own (by rw [sent]; rfl) ?_
      by_contra other
      exact changed ((Keyspace.write_of_ne other).trans held)

theorem Owned.changesOwnMarker {s next : Sys} {l : Label} (owned : Owned cfg sha256 s)
    (taken : step cfg sha256 s l = some next) : ChangesOwnMarker s next l := by
  intro key slot held changed
  cases l with
  | arrive id request =>
      obtain ⟨_, rfl⟩ := step_arrive.mp taken
      exact absurd held changed
  | elapse ms => exact .inl ⟨ms, rfl⟩
  | timeout id =>
      obtain ⟨_, _, _, rfl⟩ := step_timeout.mp taken
      exact absurd held changed
  | resume id fault =>
      obtain ⟨p, _, _, _, _, rfl⟩ := step_resume.mp taken
      refine absurd ?_ changed
      exact (congrFun (leave_store s id p) key).trans held
  | redis id =>
      obtain ⟨p, _, store, there, moved, rfl⟩ := step_redis.mp taken
      obtain ⟨phase, does, rfl⟩ := executes_of_command moved
      obtain ⟨rfl, inFlight⟩ := owned.own_of_changed (.inl there) does held changed
      exact .inr ⟨.inl rfl, inFlight⟩
  | late id =>
      obtain ⟨p, _, store, left, moved, rfl⟩ := step_late.mp taken
      obtain ⟨phase, does, rfl⟩ := executes_of_command moved
      obtain ⟨rfl, inFlight⟩ := owned.own_of_changed (.inr left) does held changed
      exact .inr ⟨.inr rfl, inFlight⟩

/-- **Only the owner changes its marker.** In a run in which no marker expires under
its owner and no `GET` after a lost `SET NX` finds the key absent, every command that
changes what a key holds, awaited or late, belongs to the request whose marker it
changes. -/
theorem only_own_marker_changes {s : Sys} {ls : List Label} (fresh : s.Fresh)
    (every : EveryStep (step cfg sha256)
      (fun s l => FindsRecord cfg sha256 s l ∧ MarkersOutlive cfg sha256 s l) s ls) :
    EveryStep (step cfg sha256)
      (fun s l => ∀ next, step cfg sha256 s l = some next → ChangesOwnMarker s next l) s ls := by
  have start : Owned cfg sha256 s := owned_of_fresh fresh
  refine everyStep_of_invariant ?_ ?_ every start
  · rintro s l next ⟨finds, outlive⟩ owned taken
    exact owned_step finds outlive owned taken
  · intro s l _ owned next taken
    exact owned.changesOwnMarker taken

/-! ## A finished order and a late one -/

/-- A first order is recorded, and a second request finds the record. -/
def orderTwice : List Label :=
  claiming 0 (order 201) ++ answering 0 ++ settling 0 ++ claiming 1 (order 201) ++ settling 1

/-- Without a passage of time no marker expires. -/
def NoTime : Label → Bool
  | .elapse _ => false
  | _ => true

theorem markersOutlive_of_noTime {s : Sys} {l : Label} (noTime : NoTime l) :
    MarkersOutlive cfg sha256 s l := by
  cases l with
  | elapse ms => cases noTime
  | _ => trivial

theorem order_changes_own_marker :
    EveryStep (step {} decodeLatin1)
      (fun s l => ∀ next, step {} decodeLatin1 s l = some next → ChangesOwnMarker s next l)
      {} orderTwice := by
  have every : EveryStep (step {} decodeLatin1)
      (fun s l => FindsRecord {} decodeLatin1 s l ∧ NoTime l) {} orderTwice := by
    decide +kernel
  exact only_own_marker_changes (fun _ => ⟨rfl, rfl⟩)
    (every.mono fun s l ok => ⟨ok.1, markersOutlive_of_noTime ok.2⟩)

/-- The marker of a slow order expires, a second request wins the key, and the first
one fails and is about to release it. -/
def lateFinisher : List Label :=
  claiming 0 (order 500) ++ [.elapse 10000] ++ claiming 1 (order 201) ++ answering 0

/-- The release of the late order deletes the marker of the request that is at work. -/
theorem late_finisher_deletes_marker :
    let cfg : IdempotencyMiddleware := { ttlSeconds := 10 }
    let key := orderTicket.redisKey decodeLatin1 cfg
    ∃ s ∈ exec (step cfg decodeLatin1) {} lateFinisher,
      ∃ slot ∈ s.store key, slot.value = ⟨.inFlight (orderTicket.fingerprint decodeLatin1), 1⟩ ∧
        ∃ next ∈ step cfg decodeLatin1 s (.redis 0), next.store key = none := by
  decide +kernel

/-! ## At most one execution -/

/-- Some command of the call is sent and its reply is not there. -/
def Phase.atRedis : Phase → Bool
  | .deleting _ => true
  | .deleteReply _ => true
  | .storing _ => true
  | .storeReply => true
  | phase => phase.claiming

/-- No Redis command fails. The await of its reply may still be cancelled. -/
def RedisAnswers (s : Sys) : Label → Prop
  | .resume id (some e) => ∀ p ∈ s.procs id, p.phase.atRedis → e = .cancelledError
  | _ => True

/-- No key expires. -/
def NothingExpires (s : Sys) : Label → Prop
  | .elapse ms => Keyspace.evict (s.now + ms) s.store = s.store
  | _ => True

instance (s : Sys) (l : Label) : Decidable (RedisAnswers s l) :=
  match l with
  | .resume id (some e) => inferInstanceAs (Decidable
      (∀ p ∈ s.procs id, p.phase.atRedis → e = .cancelledError))
  | .resume _ none | .arrive _ _ | .elapse _ | .timeout _ | .redis _ | .late _ => isTrue trivial

theorem nothingExpires_of_noTime {s : Sys} {l : Label} (noTime : NoTime l) :
    NothingExpires s l := by
  cases l with
  | elapse ms => cases noTime
  | _ => trivial

variable (cfg sha256) in
/-- Request `id`, which maps to `key`, is executing the wrapped app. -/
def Sys.Executing (s : Sys) (key : String) (id : ℕ) : Prop :=
  ∃ p ∈ s.procs id, p.ticket.key ≠ "" ∧ p.redisKey cfg sha256 = key ∧
    (p.phase = .running ∨ p.phase = .unrecorded)

instance (s : Sys) (key : String) (id : ℕ) : Decidable (s.Executing cfg sha256 key id) :=
  inferInstanceAs (Decidable (∃ p ∈ s.procs id, p.ticket.key ≠ "" ∧
    p.redisKey cfg sha256 = key ∧ (p.phase = .running ∨ p.phase = .unrecorded)))

/-- A response is recorded under the key. -/
def Sys.Recorded (s : Sys) (key : String) : Prop :=
  ∃ slot ∈ s.store key, slot.value.value.isDone

instance (s : Sys) (key : String) : Decidable (s.Recorded key) :=
  inferInstanceAs (Decidable (∃ slot ∈ s.store key, slot.value.value.isDone))

variable (cfg sha256) in
/-- Ownership is kept, and a call reaches the app without a reservation only when it
was passed through for want of a key. -/
structure Exclusive (s : Sys) : Prop extends Owned cfg sha256 s where
  direct : ∀ id p, s.procs id = some p → p.phase = .unrecorded → p.ticket.key = ""

theorem exclusive_of_fresh {s : Sys} (fresh : s.Fresh) : Exclusive cfg sha256 s where
  toOwned := owned_of_fresh fresh
  direct id p there := by cases (fresh id).1.symm.trans there

theorem NothingExpires.markersOutlive {s : Sys} {l : Label} (kept : NothingExpires s l) :
    MarkersOutlive cfg sha256 s l := by
  cases l with
  | elapse ms =>
      intro id p slot _ _ held _ _
      have still : Keyspace.evict (s.now + ms) s.store = s.store := kept
      rw [← still] at held
      exact (Keyspace.evict_eq_some.mp held).2
  | _ => trivial

theorem begin_unrecorded (request : Request) :
    (request.begin cfg).phase = .unrecorded → (request.begin cfg).ticket.key = "" := by
  unfold Request.begin
  cases dispatch cfg request.scope with
  | error e => exact fun direct => by cases direct
  | ok way =>
      cases way with
      | passThrough => exact fun _ => rfl
      | keyed key => exact fun direct => by cases direct

theorem atRedis_of_claiming {phase : Phase} (claiming : phase.claiming) : phase.atRedis := by
  cases phase <;> first | exact claiming | cases claiming

/-- A call goes on without a reservation only if it had none, or because Redis failed
while it claimed its key. -/
theorem unrecorded_of_resumes {now : ℕ} {fault : Option PyExc} {p q : Proc}
    (moves : p.Resumes cfg sha256 now fault q) (entered : q.phase = .unrecorded) :
    p.phase = .unrecorded ∨ p.phase.atRedis ∧ fault = some .redisError := by
  cases moves with
  | unrecorded here taken => exact .inl here
  | awaited here taken => rw [(await_frame taken).1, here] at entered; cases entered
  | @claimFailed e here =>
      rcases claimFailed_cases cfg now p e with ⟨_, rfl⟩ | ⟨_, led⟩ | led
      · exact .inr ⟨atRedis_of_claiming here, rfl⟩
      · cases led.symm.trans entered
      · cases led.symm.trans entered
  | @appEnded result here atEnd =>
      rcases appEnded_cases sha256 p result with ⟨_, led, _⟩ | ⟨led, _⟩ | ⟨led, _⟩
      all_goals cases led.symm.trans entered
  | _ => cases entered

theorem exclusive_step {s next : Sys} {l : Label} (answers : RedisAnswers s l)
    (kept : NothingExpires s l) (finds : FindsRecord cfg sha256 s l)
    (exclusive : Exclusive cfg sha256 s) (taken : step cfg sha256 s l = some next) :
    Exclusive cfg sha256 next := by
  refine ⟨owned_step finds kept.markersOutlive exclusive.toOwned taken, ?_⟩
  intro id q after
  rcases arrived_or_goes_of_step after taken with ⟨request, rfl, rfl⟩ | ⟨p, there, goes⟩
  · exact begin_unrecorded request
  · cases goes with
    | still => exact exclusive.direct id _ there
    | timedOut => exact exclusive.direct id p there
    | resumed moves =>
        intro entered
        rw [(scope_key_of_resumes moves).2]
        rcases unrecorded_of_resumes moves entered with before | ⟨atRedis, rfl⟩
        · exact exclusive.direct id p there before
        · cases answers p there atRedis
    | executed does =>
        intro entered
        exact absurd entered (ne_of_executes does).2.1

theorem Exclusive.owner_of_executing {s : Sys} (exclusive : Exclusive cfg sha256 s) {key : String}
    {id : ℕ} (executing : s.Executing cfg sha256 key id) :
    ∃ p, s.procs id = some p ∧ p.phase.owner ∧ p.redisKey cfg sha256 = key := by
  obtain ⟨p, there, keyed, same, running | direct⟩ := executing
  · exact ⟨p, there, by rw [running]; rfl, same⟩
  · exact absurd (exclusive.direct id p there direct) keyed

theorem Exclusive.unique_executing {s : Sys} (exclusive : Exclusive cfg sha256 s) {key : String}
    {first second : ℕ} (one : s.Executing cfg sha256 key first)
    (two : s.Executing cfg sha256 key second) : first = second := by
  obtain ⟨p, hp, owner, rfl⟩ := exclusive.owner_of_executing one
  obtain ⟨q, hq, other, same⟩ := exclusive.owner_of_executing two
  exact exclusive.unique (.inl hp) (.inl hq) owner other same.symm

theorem Exclusive.not_executing_of_recorded {s : Sys} (exclusive : Exclusive cfg sha256 s)
    {key : String} (recorded : s.Recorded key) (id : ℕ) : ¬ s.Executing cfg sha256 key id := by
  intro executing
  obtain ⟨p, there, owner, rfl⟩ := exclusive.owner_of_executing executing
  obtain ⟨slot, held, done⟩ := recorded
  obtain ⟨slot', marker, _, inFlight⟩ := exclusive.marker id p (.inl there) owner
  obtain rfl := Option.some.inj (held.symm.trans marker)
  rw [done] at inFlight
  cases inFlight

/-- A recorded response stays recorded while keys do not expire. -/
theorem recorded_step {s next : Sys} {l : Label} {key : String} (owned : Owned cfg sha256 s)
    (kept : NothingExpires s l) (recorded : s.Recorded key)
    (taken : step cfg sha256 s l = some next) : next.Recorded key := by
  obtain ⟨slot, held, done⟩ := recorded
  refine ⟨slot, ?_, done⟩
  by_contra changed
  rcases owned.changesOwnMarker taken key slot held changed with ⟨ms, rfl⟩ | ⟨_, inFlight⟩
  · obtain rfl := Option.some.inj taken
    have still : Keyspace.evict (s.now + ms) s.store = s.store := kept
    exact changed (by rw [still]; exact held)
  · rw [done] at inFlight
    cases inFlight

/-- **Single execution.** In a run in which Redis answers, no key expires and no
`GET` after a lost `SET NX` finds the key absent: at every moment at most one request
of a key executes the app, and from a moment at which a response is recorded on none
does. -/
theorem single_execution {s : Sys} {ls : List Label} (fresh : s.Fresh)
    (every : EveryStep (step cfg sha256)
      (fun s l => (RedisAnswers s l ∧ NothingExpires s l) ∧ FindsRecord cfg sha256 s l) s ls)
    {past future : List Label} (split : ls = past ++ future) {t : Sys}
    (run : exec (step cfg sha256) s past = some t) :
    (∀ key first second, t.Executing cfg sha256 key first → t.Executing cfg sha256 key second →
        first = second) ∧
      ∀ key, t.Recorded key →
        EveryState (step cfg sha256) (fun u => ∀ id, ¬ u.Executing cfg sha256 key id) t future := by
  subst split
  obtain ⟨before, after⟩ := (everyStep_append run).mp every
  have exclusive : Exclusive cfg sha256 t :=
    exec_invariant (fun s l next ok holds taken =>
      exclusive_step ok.1.1 ok.1.2 ok.2 holds taken) run before (exclusive_of_fresh fresh)
  refine ⟨fun key first second one two => exclusive.unique_executing one two, ?_⟩
  intro key recorded
  have always : EveryState (step cfg sha256)
      (fun u => Exclusive cfg sha256 u ∧ u.Recorded key) t future := by
    refine everyState_of_preserved ?_ after ⟨exclusive, recorded⟩
    rintro s l next ok ⟨holds, done⟩ taken
    exact ⟨exclusive_step ok.1.1 ok.1.2 ok.2 holds taken,
      recorded_step holds.toOwned ok.1.2 done taken⟩
  exact always.mono fun u holds id => holds.1.not_executing_of_recorded holds.2 id

/-- Once the first of two orders is recorded, the second never executes. -/
theorem recorded_order_not_executed :
    let key := orderTicket.redisKey decodeLatin1 {}
    ∃ t ∈ exec (step {} decodeLatin1) {} (claiming 0 (order 201) ++ answering 0 ++ settling 0),
      t.Recorded key ∧ EveryState (step {} decodeLatin1)
        (fun u => ∀ id, ¬ u.Executing {} decodeLatin1 key id) t
        (claiming 1 (order 201) ++ settling 1) := by
  obtain ⟨t, run, recorded⟩ : ∃ t ∈ exec (step {} decodeLatin1) {}
      (claiming 0 (order 201) ++ answering 0 ++ settling 0),
      t.Recorded (orderTicket.redisKey decodeLatin1 {}) := by
    decide +kernel
  have every : EveryStep (step {} decodeLatin1)
      (fun s l => RedisAnswers s l ∧ NoTime l ∧ FindsRecord {} decodeLatin1 s l) {}
      orderTwice := by
    decide +kernel
  refine ⟨t, run, recorded, ?_⟩
  exact (single_execution (fun _ => ⟨rfl, rfl⟩)
    (every.mono fun s l ok => ⟨⟨ok.1, nothingExpires_of_noTime ok.2.1⟩, ok.2.2⟩)
    (by simp [orderTwice]) run).2 _ recorded

/-- Two requests lose `SET NX` to a first one, which then fails and releases the key;
their `GET`s find it absent. -/
def releaseRace : List Label :=
  claiming 0 (order 500) ++ claiming 1 (order 201) ++ claiming 2 (order 201) ++ answering 0 ++
    settling 0 ++ settling 1 ++ settling 2

/-- Redis answers every command and no key expires, and two requests of one key
execute the app at the same time. -/
theorem released_between_set_and_get_runs_twice :
    EveryStep (step {} decodeLatin1) (fun s l => RedisAnswers s l ∧ NothingExpires s l) {}
        releaseRace ∧
      ∃ s ∈ exec (step {} decodeLatin1) {} releaseRace,
        s.Executing {} decodeLatin1 (orderTicket.redisKey decodeLatin1 {}) 1 ∧
          s.Executing {} decodeLatin1 (orderTicket.redisKey decodeLatin1 {}) 2 := by
  have every : EveryStep (step {} decodeLatin1) (fun s l => RedisAnswers s l ∧ NoTime l) {}
      releaseRace := by
    decide +kernel
  exact ⟨every.mono fun s l ok => ⟨ok.1, nothingExpires_of_noTime ok.2⟩, by decide +kernel⟩

end PyCommon.Idempotency
