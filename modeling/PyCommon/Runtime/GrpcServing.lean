import PyCommon.Lib.Handles

/-!
# Starting and stopping the gRPC server

`GrpcServer.start` makes a server, registers its servicers and ports, awaits its start, and then
puts it in the one field of the object. It does not look at the field. `GrpcServer.stop` awaits the
stop of the server in the field, and then empties the field, whatever is in it by now.

A server that runs can be stopped only while it is in the field. It is there in every state of a
run exactly when each start that returns and each stop that returns finds no other server running
(`servers_kept_iff`). A server that is started while the one before it drains is lost.
-/

set_option autoImplicit false

namespace PyCommon.GrpcServing

open Handles StepSystem

/-- A `GrpcServer`, with its calls that wait. `servers.held` is `_server`, and `servers.live` has
the servers that run. -/
structure GrpcServer where
  enabled : Bool := true
  made : ℕ := 0
  servers : Field := {}
  starting : List ℕ := []
  stopping : List ℕ := []
  deriving DecidableEq

/-- A call, or the end of an await of one that waits. What raises before the await of a start leaves
a server that never ran, like a start that fails. -/
inductive Event where
  | startCall
  | started (id : ℕ)
  | startFailed (id : ℕ)
  | stopCall
  | stopped (id : ℕ)
  | stopFailed (id : ℕ)
  deriving DecidableEq

namespace GrpcServer

variable (s : GrpcServer)

/-- `start`, up to its await. -/
def startCall : GrpcServer :=
  if s.enabled then { s with made := s.made + 1, starting := s.made :: s.starting } else s

/-- The rest of a `start`. -/
def started (id : ℕ) : GrpcServer :=
  { s with servers := s.servers.after (.put id), starting := s.starting.erase id }

def startFailed (id : ℕ) : GrpcServer := { s with starting := s.starting.erase id }

/-- `stop`, up to its await. -/
def stopCall : GrpcServer :=
  match s.servers.held with
  | none => s
  | some id => { s with stopping := id :: s.stopping }

/-- The rest of a `stop`. -/
def stopped (id : ℕ) : GrpcServer :=
  { s with servers := s.servers.after (.clear (some id)), stopping := s.stopping.erase id }

/-- A stop that raises, or is cancelled, leaves the field. -/
def stopFailed (id : ℕ) : GrpcServer := { s with stopping := s.stopping.erase id }

end GrpcServer

def step (s : GrpcServer) : Event → Option GrpcServer
  | .startCall => some s.startCall
  | .started id => if id ∈ s.starting then some (s.started id) else none
  | .startFailed id => if id ∈ s.starting then some (s.startFailed id) else none
  | .stopCall => some s.stopCall
  | .stopped id => if id ∈ s.stopping then some (s.stopped id) else none
  | .stopFailed id => if id ∈ s.stopping then some (s.stopFailed id) else none

/-- What an event does to the field of the servers. -/
def Event.move : Event → Move
  | .started id => .put id
  | .stopped id => .clear (some id)
  | _ => .keep

theorem servers_of_step {s next : GrpcServer} {event : Event} (taken : step s event = some next) :
    next.servers = s.servers.after event.move := by
  cases event with
  | startCall =>
      obtain rfl := Option.some.inj taken
      unfold GrpcServer.startCall
      cases s.enabled <;> rfl
  | stopCall =>
      obtain rfl := Option.some.inj taken
      unfold GrpcServer.stopCall
      cases s.servers.held <;> rfl
  | _ =>
      obtain ⟨_, same⟩ := Option.ite_none_right_eq_some.mp taken
      obtain rfl := Option.some.inj same
      rfl

/-- **Every server that runs is the one that `stop` stops, in every state,** exactly when each start
and each stop that returns finds no other server running. -/
theorem servers_kept_iff {events : List Event} {start s : GrpcServer}
    (fresh : start.servers = {}) (run : exec step start events = some s) :
    EveryState step (fun s => s.servers.Kept) start events ↔
      EveryStep step (fun s event => s.servers.Alone event.move) start events :=
  kept_iff GrpcServer.servers (fun _ event => event.move) (fun _ _ _ taken => servers_of_step taken)
    run (fresh ▸ Field.kept_empty)

/-- A server that is started while the one before it drains: it runs, and nothing stops it. -/
theorem restart_while_draining :
    ¬ EveryState step (fun s => s.servers.Kept) {}
        [.startCall, .started 0, .stopCall, .startCall, .started 1, .stopped 0] := by
  rw [servers_kept_iff rfl rfl]
  decide

end PyCommon.GrpcServing
