import PyCommon.Asgi

/-!
# Layers around an application

The request context, the timeout and the body limit are written alike: `send` is
wrapped so that a flag is set when a start message is handed on, the wrapped
application is called, and an exception that comes out of it is either let through or
replaced by a response of the layer's own. `Layer` is the state of such a call, over
the state of the call that it wraps; a layer is given by what it does with an
exception (`settle`).

An await is the innermost application's unless a layer has taken over (`current`), and
what it comes back with is passed in from the outside (`answer`).
-/

set_option autoImplicit false

namespace PyCommon

/-! ## What an await comes back with -/

/-- What a pending await comes back with. A message may have been forwarded by the time
its `send` is cancelled. -/
inductive Answer where
  | received (message : ReceiveMessage)
  | sent
  | slept (fault : Option PyExc)
  | cancelled (forwarded : Bool)
  deriving DecidableEq

def Answer.isCancelled : Answer → Bool
  | .cancelled _ => true
  | _ => false

/-- The application after its await has come back. -/
def App.answer : App → Answer → Option App
  | .receive k, .received message => some (k (.ok message))
  | .send _ k, .sent => some (k (.ok ()))
  | .sleep k, .slept none => some (k (.ok ()))
  | .sleep k, .slept (some e) => some (k (.error e))
  | .receive k, .cancelled _ => some (k (.error .cancelledError))
  | .send _ k, .cancelled _ => some (k (.error .cancelledError))
  | .sleep k, .cancelled _ => some (k (.error .cancelledError))
  | _, _ => none

/-- The message an application is waiting to have sent. -/
def App.pending : App → Option SendMessage
  | .send message _ => some message
  | _ => none

/-- The application is waiting to have a start message sent. -/
def App.starts (app : App) : Bool := app.pending.any SendMessage.isStart

theorem App.result_eq_none_of_answer {app after : App} {a : Answer}
    (moved : app.answer a = some after) : app.result = none := by
  cases app with
  | done => cases moved
  | raise e => cases moved
  | _ => rfl

theorem App.eq_done_of_result {app : App} (ended : app.result = some (.ok ())) : app = .done := by
  cases app with
  | done => rfl
  | _ => cases ended

theorem App.eq_raise_of_result {app : App} {e : PyExc} (ended : app.result = some (.error e)) :
    app = .raise e := by
  cases app with
  | raise e' =>
      obtain rfl := Except.error.inj (Option.some.inj ended)
      rfl
  | _ => cases ended

/-- A response on its way moves on by a message, or is cut off by a cancellation. -/
theorem App.answer_sending {messages : List SendMessage} {a : Answer} {after : App}
    (moved : (App.sending messages).answer a = some after) :
    ∃ message rest, messages = message :: rest ∧
      (a = .sent ∧ after = App.sending rest ∨
        ∃ forwarded, a = .cancelled forwarded ∧ after = .raise .cancelledError) := by
  cases messages with
  | nil => cases moved
  | cons message rest =>
      refine ⟨message, rest, rfl, ?_⟩
      cases a with
      | sent => exact .inl ⟨rfl, (Option.some.inj moved).symm⟩
      | cancelled forwarded => exact .inr ⟨forwarded, rfl, (Option.some.inj moved).symm⟩
      | _ => cases moved

/-! ## A layer -/

/-- Where a call of a middleware is: it stays out of the way, it has called the wrapped
application with its own `send`, or that call is behind it. -/
inductive Mode where
  | passing
  | wrapping (started : Bool)
  | finishing (rest : App)

/-- A call of a middleware over the call that it wraps. The latter is kept when it is
over. -/
structure Layer (Call : Type) where
  mode : Mode
  call : Call

namespace Layer

variable {Call : Type}

/-- What the call is waiting for, or how it has ended. -/
def current (inner : Call → App) (layer : Layer Call) : App :=
  match layer.mode with
  | .finishing rest => rest
  | _ => inner layer.call

/-- Go on to the next await: `send_wrapper` notes a start message before it forwards
it, and `handler` says what becomes of an exception. -/
def settle (inner : Call → App) (handler : Bool → PyExc → App) (started : Bool) (call : Call) :
    Layer Call :=
  match inner call with
  | .done => ⟨.finishing .done, call⟩
  | .raise e => ⟨.finishing (handler started e), call⟩
  | app => ⟨.wrapping (started || app.starts), call⟩

/-- The call after its await has come back. -/
def answer (inner : Call → App) (handler : Bool → PyExc → App) (move : Call → Answer → Option Call)
    (layer : Layer Call) (a : Answer) : Option (Layer Call) :=
  match layer.mode with
  | .passing => (move layer.call a).map fun call => ⟨.passing, call⟩
  | .wrapping started => (move layer.call a).map (settle inner handler started)
  | .finishing rest => (rest.answer a).map fun rest => ⟨.finishing rest, layer.call⟩

variable {inner : Call → App} {handler : Bool → PyExc → App} {started : Bool} {call : Call}

theorem settle_of_result_eq_none (awaits : (inner call).result = none) :
    settle inner handler started call = ⟨.wrapping (started || (inner call).starts), call⟩ := by
  rw [settle]
  cases app : inner call with
  | done => rw [app] at awaits; cases awaits
  | raise e => rw [app] at awaits; cases awaits
  | _ => rfl

theorem settle_of_done (ended : inner call = .done) :
    settle inner handler started call = ⟨.finishing .done, call⟩ := by
  rw [settle, ended]

theorem settle_of_raise {e : PyExc} (ended : inner call = .raise e) :
    settle inner handler started call = ⟨.finishing (handler started e), call⟩ := by
  rw [settle, ended]

/-! ### Before a layer takes over -/

/-- The mode of a layer that has not taken over, with its flag if it has one. -/
def keep (passes started : Bool) : Mode :=
  if passes then .passing else .wrapping started

/-- A layer that has not taken over, after the call that it wraps has moved. -/
def enter (inner : Call → App) (handler : Bool → PyExc → App) (passes started : Bool)
    (call : Call) : Layer Call :=
  if passes then ⟨.passing, call⟩ else settle inner handler started call

variable {passes : Bool}

theorem answer_finishing {move : Call → Answer → Option Call} {rest : App} {a : Answer} :
    answer inner handler move ⟨.finishing rest, call⟩ a =
      (rest.answer a).map fun rest => ⟨.finishing rest, call⟩ := rfl

theorem answer_keep {move : Call → Answer → Option Call} {a : Answer} :
    answer inner handler move ⟨keep passes started, call⟩ a =
      (move call a).map (enter inner handler passes started) := by
  cases passes <;> rfl

@[simp] theorem current_keep : current inner ⟨keep passes started, call⟩ = inner call := by
  cases passes <;> rfl

@[simp] theorem call_enter : (enter inner handler passes started call).call = call := by
  cases passes with
  | true => rfl
  | false =>
      simp only [enter, settle, Bool.false_eq_true, if_false]
      split <;> rfl

theorem enter_of_result_eq_none (awaits : (inner call).result = none) :
    enter inner handler passes started call =
      ⟨keep passes (started || (inner call).starts), call⟩ := by
  cases passes with
  | true => rfl
  | false => exact settle_of_result_eq_none awaits

theorem current_enter_of_done (ended : inner call = .done) :
    current inner (enter inner handler passes started call) = .done := by
  cases passes with
  | true => exact ended
  | false => simp only [enter, settle, ended, Bool.false_eq_true, if_false, current]

/-- An exception passes a layer that stays out of the way, and is handled by another. -/
theorem current_enter_of_raise {e : PyExc} (ended : inner call = .raise e) :
    current inner (enter inner handler passes started call) =
      if passes then .raise e else handler started e := by
  cases passes with
  | true => exact ended
  | false => simp only [enter, settle, ended, Bool.false_eq_true, if_false, current]

end Layer

end PyCommon
