import PyCommon.Lib.Handles

/-!
# The object storage client

`ObjectStorageClient` holds one S3 client. `open` returns at once if there is one. Otherwise it
makes a client context, puts it in a field and awaits its `__aenter__`, which gives the client that
goes in a second field. `close` awaits the `__aexit__` of the context in the field, and then empties
both fields.

Any number of these calls may be waiting at once. The client that is handed out is always one that
was opened and that no exit has ended (`handed_out_open`). But a second `open` that comes while the
first still waits puts its own context in the field, and a `close` empties the fields it finds when
its exit returns. A context that was opened, or is being opened, can be closed only while it is in
the field: it is there in every state exactly when each context is put in the field, and each field
is emptied, while no other context is open or being opened (`contexts_kept_iff`).
-/

set_option autoImplicit false

namespace PyCommon.Storage

open Handles StepSystem

/-- The client, with its calls that wait. `contexts.held` is `_client_cm`, and `contexts.live` has
the contexts that are being opened or are open. -/
structure ObjectStorageClient where
  made : ℕ := 0
  client : Option ℕ := none
  contexts : Field := {}
  opening : List ℕ := []
  closing : List ℕ := []
  deriving DecidableEq

/-- A call, or the end of an await of one that waits: of the `__aenter__` in an `open`, of the
`__aexit__` in a `close`. -/
inductive Event where
  | openCall
  | entered (id : ℕ)
  | enterFailed (id : ℕ)
  | closeCall
  | exited (id : ℕ)
  | exitFailed (id : ℕ)
  deriving DecidableEq

namespace ObjectStorageClient

variable (s : ObjectStorageClient)

/-- `open`, up to its await. -/
def openCall : ObjectStorageClient :=
  match s.client with
  | some _ => s
  | none =>
      { s with
        made := s.made + 1
        contexts := s.contexts.after (.put s.made)
        opening := s.made :: s.opening }

/-- The rest of an `open`. -/
def entered (id : ℕ) : ObjectStorageClient :=
  { s with client := some id, opening := s.opening.filter (· ≠ id) }

/-- An `__aenter__` that raises opens nothing, and leaves its context in the field. -/
def enterFailed (id : ℕ) : ObjectStorageClient :=
  { s with contexts := s.contexts.after (.drop id), opening := s.opening.filter (· ≠ id) }

/-- `close`, up to its await. -/
def closeCall : ObjectStorageClient :=
  match s.contexts.held with
  | none => { s with client := none, contexts := { s.contexts with held := none } }
  | some id => { s with closing := id :: s.closing }

/-- The context that an exit ends. A context that is still being opened has nothing to end yet. -/
def ends (id : ℕ) : Option ℕ := if id ∈ s.opening then none else some id

/-- The rest of a `close`. -/
def exited (id : ℕ) : ObjectStorageClient :=
  { s with
    client := none
    contexts := s.contexts.after (.clear (s.ends id))
    closing := s.closing.erase id }

/-- An `__aexit__` that raises leaves the fields, and its context open. -/
def exitFailed (id : ℕ) : ObjectStorageClient := { s with closing := s.closing.erase id }

end ObjectStorageClient

def step (s : ObjectStorageClient) : Event → Option ObjectStorageClient
  | .openCall => some s.openCall
  | .entered id => if id ∈ s.opening then some (s.entered id) else none
  | .enterFailed id => if id ∈ s.opening then some (s.enterFailed id) else none
  | .closeCall => some s.closeCall
  | .exited id => if id ∈ s.closing then some (s.exited id) else none
  | .exitFailed id => if id ∈ s.closing then some (s.exitFailed id) else none

/-- What an event does to the field of the contexts. -/
def ObjectStorageClient.move (s : ObjectStorageClient) : Event → Move
  | .openCall => if s.client = none then .put s.made else .keep
  | .enterFailed id => .drop id
  | .exited id => .clear (s.ends id)
  | _ => .keep

/-! ## What an event does -/

/-- What an event does: an `open` that finds a client and a `close` that finds no context leave the
contexts alone, and the end of an await is that of a call that waits. -/
inductive Does (s : ObjectStorageClient) : Event → ObjectStorageClient → Prop
  | reused {id : ℕ} (found : s.client = some id) : Does s .openCall s
  | making (absent : s.client = none) :
      Does s .openCall
        { s with
          made := s.made + 1
          contexts := s.contexts.after (.put s.made)
          opening := s.made :: s.opening }
  | entered {id : ℕ} (waits : id ∈ s.opening) : Does s (.entered id) (s.entered id)
  | enterFailed {id : ℕ} (waits : id ∈ s.opening) : Does s (.enterFailed id) (s.enterFailed id)
  | idle (absent : s.contexts.held = none) : Does s .closeCall { s with client := none }
  | leaving {id : ℕ} (found : s.contexts.held = some id) :
      Does s .closeCall { s with closing := id :: s.closing }
  | exited {id : ℕ} (waits : id ∈ s.closing) : Does s (.exited id) (s.exited id)
  | exitFailed {id : ℕ} (waits : id ∈ s.closing) : Does s (.exitFailed id) (s.exitFailed id)

section Steps

variable {s next : ObjectStorageClient} {event : Event}

theorem openCall_of_absent (absent : s.client = none) :
    s.openCall =
      { s with
        made := s.made + 1
        contexts := s.contexts.after (.put s.made)
        opening := s.made :: s.opening } := by
  simp [ObjectStorageClient.openCall, absent]

theorem does_of_step (taken : step s event = some next) : Does s event next := by
  cases event with
  | openCall =>
      obtain rfl := Option.some.inj taken
      cases found : s.client with
      | none =>
          rw [openCall_of_absent found]
          exact .making found
      | some id =>
          unfold ObjectStorageClient.openCall
          rw [found]
          exact .reused found
  | entered id =>
      obtain ⟨waits, same⟩ := Option.ite_none_right_eq_some.mp taken
      obtain rfl := Option.some.inj same
      exact .entered waits
  | enterFailed id =>
      obtain ⟨waits, same⟩ := Option.ite_none_right_eq_some.mp taken
      obtain rfl := Option.some.inj same
      exact .enterFailed waits
  | closeCall =>
      obtain rfl := Option.some.inj taken
      unfold ObjectStorageClient.closeCall
      cases found : s.contexts.held with
      | none =>
          have same : ({ s.contexts with held := none } : Field) = s.contexts := by rw [← found]
          rw [same]
          exact .idle found
      | some id => exact .leaving found
  | exited id =>
      obtain ⟨waits, same⟩ := Option.ite_none_right_eq_some.mp taken
      obtain rfl := Option.some.inj same
      exact .exited waits
  | exitFailed id =>
      obtain ⟨waits, same⟩ := Option.ite_none_right_eq_some.mp taken
      obtain rfl := Option.some.inj same
      exact .exitFailed waits

theorem contexts_of_step (taken : step s event = some next) :
    next.contexts = s.contexts.after (s.move event) := by
  cases does_of_step taken with
  | reused found => simp [ObjectStorageClient.move, found, Field.after]
  | making absent => simp [ObjectStorageClient.move, absent]
  | _ => rfl

/-! ## The client that is handed out -/

/-- Contexts that are being opened are live, and the client is of one that is live and no longer
being opened. -/
structure Sound (s : ObjectStorageClient) : Prop where
  opening_live : ∀ id ∈ s.opening, id ∈ s.contexts.live
  client_live : ∀ id ∈ s.client, id ∈ s.contexts.live
  client_opened : ∀ id ∈ s.client, id ∉ s.opening

theorem ends_ne_of_opening {id other : ℕ} (waits : other ∈ s.opening) :
    s.ends id ≠ some other := by
  unfold ObjectStorageClient.ends
  split
  · exact (Option.some_ne_none other).symm
  · next finished =>
      rintro same
      exact finished (Option.some.inj same ▸ waits)

theorem Sound.step (sound : Sound s) (taken : step s event = some next) : Sound next := by
  obtain ⟨openingLive, clientLive, clientOpened⟩ := sound
  cases does_of_step taken with
  | reused _ => exact ⟨openingLive, clientLive, clientOpened⟩
  | making absent =>
      refine ⟨?_, ?_, ?_⟩
      · intro id member
        rcases List.mem_cons.mp member with rfl | before
        · exact List.mem_cons_self
        · exact List.mem_cons_of_mem _ (openingLive id before)
      · exact fun id found => absurd (found.symm.trans absent) (Option.some_ne_none id)
      · exact fun id found => absurd (found.symm.trans absent) (Option.some_ne_none id)
  | @entered id waits =>
      refine ⟨?_, ?_, ?_⟩
      · exact fun other member => openingLive other (List.mem_of_mem_filter member)
      · rintro other ⟨⟩
        exact openingLive id waits
      · rintro other ⟨⟩ member
        exact of_decide_eq_true (List.mem_filter.mp member).2 rfl
  | @enterFailed id waits =>
      refine ⟨?_, ?_, ?_⟩
      · intro other member
        obtain ⟨before, apart⟩ := List.mem_filter.mp member
        exact List.mem_filter.mpr ⟨openingLive other before, apart⟩
      · intro other found
        have apart : other ≠ id := fun same => clientOpened other found (same ▸ waits)
        exact List.mem_filter.mpr ⟨clientLive other found, decide_eq_true apart⟩
      · exact fun other found member =>
          clientOpened other found (List.mem_of_mem_filter member)
  | idle _ =>
      exact ⟨openingLive, fun id found => absurd found (Option.not_mem_none id),
        fun id found => absurd found (Option.not_mem_none id)⟩
  | leaving _ => exact ⟨openingLive, clientLive, clientOpened⟩
  | exited waits =>
      refine ⟨?_, ?_, ?_⟩
      · intro other member
        exact List.mem_filter.mpr
          ⟨openingLive other member, decide_eq_true (ends_ne_of_opening member)⟩
      · exact fun id found => absurd found (Option.not_mem_none id)
      · exact fun id found => absurd found (Option.not_mem_none id)
  | exitFailed _ => exact ⟨openingLive, clientLive, clientOpened⟩

end Steps

/-- The client that is handed out was opened, and no exit has ended it. -/
theorem handed_out_open {events : List Event} {s : ObjectStorageClient} {id : ℕ}
    (run : exec step {} events = some s) (handed : s.client = some id) :
    id ∈ s.contexts.live ∧ id ∉ s.opening := by
  have start : Sound {} :=
    ⟨fun id member => absurd member List.not_mem_nil,
      fun id found => absurd found (Option.not_mem_none id),
      fun id found => absurd found (Option.not_mem_none id)⟩
  have sound : Sound s := exec_invariant_always (fun _ _ _ sound => sound.step) run start
  exact ⟨sound.client_live id handed, sound.client_opened id handed⟩

/-! ## The contexts that can be closed -/

/-- **Every context that is open or being opened is the one that `close` exits, in every state,**
exactly when each `open` that makes a context and each exit that returns finds no other. -/
theorem contexts_kept_iff {events : List Event} {s : ObjectStorageClient}
    (run : exec step {} events = some s) :
    EveryState step (fun s => s.contexts.Kept) {} events ↔
      EveryStep step (fun s event => s.contexts.Alone (s.move event)) {} events :=
  kept_iff ObjectStorageClient.contexts ObjectStorageClient.move
    (fun _ _ _ taken => contexts_of_step taken) run Field.kept_empty

/-- Two calls of `open` that overlap: the context of the first is open and nothing closes it. -/
theorem overlapping_opens_leak :
    ¬ EveryState step (fun s => s.contexts.Kept) {}
        [.openCall, .openCall, .entered 0, .entered 1, .closeCall, .exited 1] := by
  rw [contexts_kept_iff rfl]
  decide

end PyCommon.Storage
