import PyCommon.Http.Middleware.Nest

/-!
# One response for each request

Each of the three layers takes over from the application only if no start message has
passed it, so at most one start reaches the server (`at_most_one_start`). But a layer
notes the start before it forwards it. A cancellation that was due already and comes
back from that `send` leaves every layer believing that the response is on the wire,
and nobody answers; one that comes back from a `send` of the 413 leaves that response
unfinished. As long as no cancellation cuts a response off in this way, an application
that is stopped before its start has reached the server is answered with exactly one
complete error response (`one_response`), and otherwise it may not be
(`start_cut_off`).
-/

set_option autoImplicit false

namespace PyCommon.Middleware

open StepSystem

/-! ## The property -/

namespace State

def ended (s : State) : Bool := s.current.result.isSome

/-- The application was stopped by an exception or by the expired deadline, or it was
refused for the length of its body before it began. -/
def stopped (s : State) : Bool :=
  !s.running && match s.app.result with
    | none => true
    | some (.ok _) => false
    | some (.error e) => e.isException || s.cancelCalled

/-- The start message of the application has reached the server. -/
def appStarted (s : State) : Bool := s.reached.any fun d => d.own && d.message.isStart

/-- What has reached the server from the layers themselves. -/
def fromLayers (s : State) : List SendMessage :=
  (s.reached.filter fun d => !d.own).map Delivery.message

/-- The start messages that have reached the server. -/
def starts (s : State) : ℕ := s.reached.countP fun d => d.message.isStart

end State

/-- A whole response of one of the three layers. -/
def CompleteError (messages : List SendMessage) : Prop :=
  ∃ status headers body, status ∈ [(500 : ℤ), 413, 504] ∧
    messages = [.start status headers, .body body false]

/-- At most one start reaches the server, if the application hands over at most one, and
an application that is stopped before its start has reached the server is answered with
exactly one complete error response. -/
structure OneResponse (s : State) : Prop where
  single : s.handed.countP SendMessage.isStart ≤ 1 → s.starts ≤ 1
  answered : s.ended → s.stopped → s.appStarted = false → CompleteError s.fromLayers

/-- A cancellation comes back from a `send` and cuts the response off: the start of the
application does not go out, or the response of a layer is not complete with that
message. -/
def Cut (s : State) : Label → Prop
  | .answer (.cancelled forwarded) => ∃ message ∈ s.current.pending,
      if s.running then message.isStart ∧ forwarded = false
      else message.isStart ∨ forwarded = false
  | _ => False

instance (s : State) : ∀ l, Decidable (Cut s l)
  | .answer (.cancelled forwarded) => inferInstanceAs (Decidable (∃ message ∈ s.current.pending,
      if s.running then message.isStart ∧ forwarded = false
      else message.isStart ∨ forwarded = false))
  | .answer (.received _) | .answer .sent | .answer (.slept _) | .expire => isFalse not_false

/-! ## The layers' own responses -/

section Responses

variable {nest : Nest}

theorem completeError_problemResponse {rendering : Rendering} {scope : Scope} {code : ErrorCode}
    {error : code ≠ .ok} {title detail : String} {status : ℤ} {requestId : Option String}
    (known : status ∈ [(500 : ℤ), 413, 504]) :
    CompleteError (problemResponse rendering scope code error title status detail requestId) :=
  ⟨status, _, _, known, rfl⟩

/-- The header of the request context keeps a response complete. -/
theorem CompleteError.map_sendWrapper {context : RequestContextMiddleware} {ctx : Context}
    {messages : List SendMessage} (complete : CompleteError messages) :
    CompleteError (messages.map (context.sendWrapper ctx)) := by
  obtain ⟨status, headers, body, known, rfl⟩ := complete
  exact ⟨status, _, body, known, rfl⟩

theorem CompleteError.countP {messages : List SendMessage} (complete : CompleteError messages) :
    messages.countP SendMessage.isStart = 1 := by
  obtain ⟨_, _, _, _, rfl⟩ := complete
  rfl

/-- However far a complete response has come, it has one start at most. -/
theorem CompleteError.countP_cut_le {front rest : List SendMessage} {message : SendMessage}
    (complete : CompleteError (front ++ message :: rest)) (forwarded : Bool) :
    (front ++ if forwarded then [message] else []).countP SendMessage.isStart ≤ 1 := by
  have part : (if forwarded then [message] else []).Sublist (message :: rest) := by
    cases forwarded with
    | false => exact List.nil_sublist _
    | true => exact List.singleton_sublist.mpr List.mem_cons_self
  have fewer := (part.append_left front).countP_le (p := SendMessage.isStart)
  rwa [complete.countP] at fewer

theorem CompleteError.isStart_head {message : SendMessage} {rest : List SendMessage}
    (complete : CompleteError (message :: rest)) : message.isStart = true := by
  obtain ⟨_, _, _, _, same⟩ := complete
  rw [(List.cons.inj same).1]
  rfl

/-- The first message of a response is its only start, and its second one ends it. -/
theorem CompleteError.split {before rest : List SendMessage} {message : SendMessage}
    (complete : CompleteError (before ++ message :: rest)) :
    before = [] ∧ message.isStart = true ∧ (∃ last, rest = [last] ∧ last.isStart = false) ∨
      (∃ first, before = [first] ∧ first.isStart = true) ∧ message.isStart = false ∧ rest = [] := by
  obtain ⟨status, headers, body, _, same⟩ := complete
  cases before with
  | nil =>
      obtain ⟨rfl, rfl⟩ := List.cons.inj same
      exact .inl ⟨rfl, rfl, _, rfl, rfl⟩
  | cons first before =>
      rw [List.cons_append] at same
      obtain ⟨rfl, later⟩ := List.cons.inj same
      cases before with
      | nil =>
          rw [List.nil_append] at later
          obtain ⟨rfl, rfl⟩ := List.cons.inj later
          exact .inr ⟨⟨_, rfl, rfl⟩, rfl, rfl⟩
      | cons second before =>
          have short := congrArg List.length later
          simp only [List.length_append, List.length_cons, List.length_nil] at short
          omega

end Responses

/-! ## What has reached the server -/

namespace State

variable {s : State}

theorem starts_eq_of_appStarted (unstarted : s.appStarted = false) :
    s.starts = s.fromLayers.countP SendMessage.isStart := by
  simp only [starts, fromLayers, List.countP_map, List.countP_filter]
  refine List.countP_congr fun d member => ?_
  have other := List.any_eq_false.mp unstarted d member
  cases own : d.own <;> simp_all

end State

/-! ## Stages of a request -/

section Stages

open Layer

variable {nest : Nest} {clean : Prop} {s t : State}

/-- Which layer sends the rest of a response. -/
inductive Place (s : State) (rest : List SendMessage) : Prop
  | body {passes : Bool} {call : AppCall} (inScope : s.cancelCalled = true → passes = false)
      (layers : s.call = ⟨keep false true, ⟨keep passes true, ⟨.finishing (.sending rest), call⟩⟩⟩)
  | timeout {call : BodyCall}
      (layers : s.call = ⟨keep false true, ⟨.finishing (.sending rest), call⟩⟩)
  | context {call : TimeoutCall} (layers : s.call = ⟨.finishing (.sending rest), call⟩)

theorem Place.current {rest : List SendMessage} (place : Place s rest) :
    s.current = .sending rest := by
  cases place with
  | body inScope layers =>
      simp only [State.current, layers, TimeoutCall.current, BodyCall.current, current_keep]
      rfl
  | timeout layers =>
      simp only [State.current, layers, TimeoutCall.current, current_keep]
      rfl
  | context layers =>
      rw [State.current, layers]
      rfl

theorem Place.running {rest : List SendMessage} (place : Place s rest) : s.running = false := by
  cases place with
  | @body passes _ _ layers =>
      rw [State.running, layers]
      cases passes <;> rfl
  | timeout layers =>
      rw [State.running, layers]
      rfl
  | context layers =>
      rw [State.running, layers]

/-- The application has sent no start. -/
structure Quiet (s : State) : Prop where
  handed : s.handed.any SendMessage.isStart = false
  reached : s.appStarted = false

/-- Where a request is. Every layer that has a flag has set it when the application has
handed over a start; if no response was cut off, that start has reached the server. -/
inductive Stage (nest : Nest) (clean : Prop) (s : State) : Prop
  | running {passes passes' started : Bool} {call : AppCall}
      (inScope : s.cancelCalled = true → passes = false)
      (layers : s.call = ⟨keep false started, ⟨keep passes started, ⟨keep passes' started, call⟩⟩⟩)
      (flag : started = (s.handed.any SendMessage.isStart || call.app.starts))
      (awaits : call.app.result = none)
      (own : ∀ d ∈ s.reached, d.own = true)
      (count : s.starts ≤ s.handed.countP SendMessage.isStart)
      (delivered : clean → s.handed.any SendMessage.isStart = true → s.appStarted = true)
  | replying {message : SendMessage} {rest : List SendMessage} (place : Place s (message :: rest))
      (quiet : Quiet s)
      (complete : CompleteError (s.fromLayers ++ (message :: rest).map (nest.outgoing s)))
  | finishing {rest : App} (mode : s.call.mode = .finishing rest) (atEnd : rest.result.isSome)
      (single : s.starts ≤ 1 ∨ s.starts ≤ s.handed.countP SendMessage.isStart)
      (answered : clean → s.stopped → s.appStarted = false → CompleteError s.fromLayers)

theorem Stage.single (stage : Stage nest clean s)
    (once : s.handed.countP SendMessage.isStart ≤ 1) : s.starts ≤ 1 := by
  cases stage with
  | running _ _ _ _ _ count => exact Nat.le_trans count once
  | replying place quiet complete =>
      rw [State.starts_eq_of_appStarted quiet.reached]
      rcases complete.split with ⟨empty, _⟩ | ⟨⟨first, only, start⟩, _⟩
      · rw [empty]
        exact Nat.zero_le 1
      · have count : [first].countP SendMessage.isStart = 1 := by
          rw [List.countP_singleton, if_pos start]
        rw [only]
        exact Nat.le_of_eq count
  | finishing _ _ single =>
      rcases single with single | single
      · exact single
      · exact Nat.le_trans single once

theorem Stage.oneResponse (stage : Stage nest True s) : OneResponse s := by
  refine ⟨stage.single, fun ended => ?_⟩
  cases stage with
  | running _ layers _ awaits =>
      simp only [State.ended, State.current, layers, TimeoutCall.current, BodyCall.current,
        current_keep, awaits] at ended
      cases ended
  | replying place =>
      rw [State.ended, place.current] at ended
      cases ended
  | finishing _ _ _ answered => exact answered trivial

/-! ### Entering a stage -/

variable (nest) in
/-- The body limit over the application that has moved. -/
def enterBody (passes started : Bool) : AppCall → BodyCall :=
  enter AppCall.app (nest.limit.handler nest.ctx nest.scope) passes started

variable (nest) in
def enterTimeout (cancelCalled passes started : Bool) : BodyCall → TimeoutCall :=
  enter BodyCall.current (nest.timeout.handler nest.ctx nest.scope cancelCalled) passes started

variable (nest) in
def enterContext (started : Bool) : TimeoutCall → Layer TimeoutCall :=
  enter TimeoutCall.current (nest.context.handler nest.ctx nest.scope) false started

theorem stage_of_done {started : Bool} {call : TimeoutCall} (done : call.current = .done)
    (layers : t.call = enterContext nest started call)
    (single : t.starts ≤ 1 ∨ t.starts ≤ t.handed.countP SendMessage.isStart)
    (answered : clean → t.stopped → t.appStarted = false → CompleteError t.fromLayers) :
    Stage nest clean t := by
  have mode : t.call.mode = .finishing .done := by
    rw [layers, enterContext, enter, if_neg Bool.false_ne_true, settle_of_done done]
  exact .finishing mode rfl single answered

theorem starts_le_one_of_complete (quiet : Quiet t) (complete : CompleteError t.fromLayers) :
    t.starts ≤ 1 := by
  have count : t.starts = 1 := by
    rw [State.starts_eq_of_appStarted quiet.reached, complete.countP]
  exact Nat.le_of_eq count

/-- The request context sends the rest of its response. -/
theorem stage_of_context {rest : List SendMessage} {call : TimeoutCall}
    (layers : t.call = ⟨.finishing (.sending rest), call⟩) (quiet : Quiet t)
    (complete : CompleteError (t.fromLayers ++ rest)) : Stage nest clean t := by
  cases rest with
  | nil =>
      rw [List.append_nil] at complete
      exact .finishing (by rw [layers]) rfl (.inl (starts_le_one_of_complete quiet complete))
        fun _ _ _ => complete
  | cons message rest =>
      refine .replying (.context layers) quiet ?_
      have plain : nest.outgoing t = id := by
        funext m
        rw [Nest.outgoing, layers]
        rfl
      rw [plain, List.map_id]
      exact complete

/-- A layer inside the request context sends the rest of its response. -/
theorem stage_of_inner {started : Bool} {rest : List SendMessage} {call : TimeoutCall}
    (sends : call.current = .sending rest) (layers : t.call = enterContext nest started call)
    (place : ∀ message later, rest = message :: later → Place t rest) (quiet : Quiet t)
    (complete : CompleteError (t.fromLayers ++ rest.map (nest.context.sendWrapper nest.ctx))) :
    Stage nest clean t := by
  cases rest with
  | nil =>
      rw [List.map_nil, List.append_nil] at complete
      exact stage_of_done sends layers (.inl (starts_le_one_of_complete quiet complete))
        fun _ _ _ => complete
  | cons message rest =>
      refine .replying (place message rest rfl) quiet ?_
      have wrapped : nest.outgoing t = nest.context.sendWrapper nest.ctx := by
        funext m
        rw [Nest.outgoing, layers, enterContext, enter_of_result_eq_none (by rw [sends]; rfl)]
        rfl
      rw [wrapped]
      exact complete

/-! ### What becomes of an exception -/

variable (nest) in
theorem body_of_raise (passes started : Bool) {call : AppCall} {e : PyExc}
    (ended : call.app = .raise e) :
    (enterBody nest passes started call).current = .raise e ∨
      started = true ∧ (enterBody nest passes started call).current = .done ∨
      started = false ∧ enterBody nest passes started call =
        ⟨.finishing (.sending (nest.limit.reject nest.ctx nest.scope)), call⟩ := by
  cases passes with
  | true => exact .inl (current_enter_of_raise ended)
  | false =>
      have entered : enterBody nest false started call =
          ⟨.finishing (nest.limit.handler nest.ctx nest.scope started e), call⟩ :=
        settle_of_raise ended
      rw [entered]
      by_cases caught : e = .bodyTooLarge
      · rw [BodySizeLimitMiddleware.handler, if_pos caught]
        cases started with
        | true => exact .inr (.inl ⟨rfl, rfl⟩)
        | false => exact .inr (.inr ⟨rfl, rfl⟩)
      · rw [BodySizeLimitMiddleware.handler, if_neg caught]
        exact .inl rfl

variable (nest) in
theorem timeout_of_raise (cancelCalled passes started : Bool) {call : BodyCall} {e : PyExc}
    (ended : call.current = .raise e) :
    (enterTimeout nest cancelCalled passes started call).current = .raise e ∧
        (passes = false → cancelCalled = true → e ≠ .cancelledError) ∨
      started = true ∧ (enterTimeout nest cancelCalled passes started call).current = .done ∨
      started = false ∧ enterTimeout nest cancelCalled passes started call =
        ⟨.finishing (.sending (nest.timeout.sendTimeout nest.ctx nest.scope)), call⟩ := by
  cases passes with
  | true =>
      refine .inl ⟨current_enter_of_raise ended, fun inScope => ?_⟩
      exact absurd inScope.symm Bool.false_ne_true
  | false =>
      have entered : enterTimeout nest cancelCalled false started call =
          ⟨.finishing (nest.timeout.handler nest.ctx nest.scope cancelCalled started e), call⟩ :=
        settle_of_raise ended
      rw [entered]
      by_cases caught : cancelCalled = true ∧ e = .cancelledError
      · rw [TimeoutMiddleware.handler, if_pos caught]
        cases started with
        | true => exact .inr (.inl ⟨rfl, rfl⟩)
        | false => exact .inr (.inr ⟨rfl, rfl⟩)
      · rw [TimeoutMiddleware.handler, if_neg caught]
        exact .inl ⟨rfl, fun _ expired same => caught ⟨expired, same⟩⟩

variable (nest) in
theorem context_of_raise (started : Bool) {call : TimeoutCall} {e : PyExc}
    (ended : call.current = .raise e) :
    enterContext nest started call = ⟨.finishing (.raise e), call⟩ ∧
        (e.isException = true → started = true) ∨
      started = false ∧ enterContext nest started call =
        ⟨.finishing (.sending ((RequestContextMiddleware.unhandled nest.ctx nest.scope).map
          (nest.context.sendWrapper nest.ctx))), call⟩ := by
  have entered : enterContext nest started call =
      ⟨.finishing (nest.context.handler nest.ctx nest.scope started e), call⟩ :=
    settle_of_raise ended
  rw [entered, RequestContextMiddleware.handler, nest.handles]
  cases exception : e.isException with
  | false => exact .inl ⟨rfl, fun caught => absurd caught Bool.false_ne_true⟩
  | true =>
      cases started with
      | true => exact .inl ⟨rfl, fun _ => rfl⟩
      | false => exact .inr ⟨rfl, rfl⟩

/-! ### A layer takes over -/

theorem enter_sending {Call : Type} {inner : Call → App} {handler : Bool → PyExc → App}
    {passes started : Bool} {call : Call} {message : SendMessage} {rest : List SendMessage}
    (sends : inner call = .sending (message :: rest)) (flag : (started || message.isStart) = true) :
    enter inner handler passes started call = ⟨keep passes true, call⟩ := by
  have starts : (inner call).starts = message.isStart := by rw [sends]; rfl
  rw [enter_of_result_eq_none (by rw [sends]; rfl), starts, flag]

/-- The timeout sends the rest of its response. -/
theorem stage_of_timeout {started : Bool} {rest : List SendMessage} {call : BodyCall}
    (layers : t.call = enterContext nest started ⟨.finishing (.sending rest), call⟩)
    (flag : ∀ message later, rest = message :: later → (started || message.isStart) = true)
    (quiet : Quiet t)
    (complete : CompleteError (t.fromLayers ++ rest.map (nest.context.sendWrapper nest.ctx))) :
    Stage nest clean t := by
  refine stage_of_inner rfl layers (fun message later same => ?_) quiet complete
  subst same
  exact .timeout (layers.trans (enter_sending rfl (flag message later rfl)))

/-- The body limit sends the rest of its response. -/
theorem stage_of_body {cancelCalled passes started : Bool} {rest : List SendMessage}
    {call : AppCall} (inScope : t.cancelCalled = true → passes = false)
    (layers : t.call = enterContext nest started
      (enterTimeout nest cancelCalled passes started ⟨.finishing (.sending rest), call⟩))
    (flag : ∀ message later, rest = message :: later → (started || message.isStart) = true)
    (quiet : Quiet t)
    (complete : CompleteError (t.fromLayers ++ rest.map (nest.context.sendWrapper nest.ctx))) :
    Stage nest clean t := by
  cases rest with
  | nil =>
      refine stage_of_inner ?_ layers (fun _ _ same => ?_) quiet complete
      · exact current_enter_of_done rfl
      · exact absurd same.symm (List.cons_ne_nil _ _)
  | cons message rest =>
      have sends : BodyCall.current ⟨.finishing (.sending (message :: rest)), call⟩ =
        .sending (message :: rest) := rfl
      rw [enterTimeout, enter_sending sends (flag message rest rfl)] at layers
      have inside : TimeoutCall.current
          ⟨keep passes true, ⟨.finishing (.sending (message :: rest)), call⟩⟩ =
          .sending (message :: rest) := current_keep
      refine stage_of_inner inside layers (fun _ _ _ => ?_) quiet complete
      exact .body inScope (layers.trans (enter_sending inside (flag message rest rfl)))

theorem quiet_of_count (untouched : t.handed.any SendMessage.isStart = false)
    (count : t.starts ≤ t.handed.countP SendMessage.isStart) : Quiet t := by
  have zero : t.handed.countP SendMessage.isStart = 0 := by
    rw [List.countP_eq_zero]
    exact fun m member => List.any_eq_false.mp untouched m member
  rw [zero, Nat.le_zero, State.starts, List.countP_eq_zero] at count
  refine ⟨untouched, List.any_eq_false.mpr fun d member both => ?_⟩
  exact count d member (Bool.and_eq_true_iff.mp both).2

theorem fromLayers_of_own (own : ∀ d ∈ t.reached, d.own = true) : t.fromLayers = [] := by
  rw [State.fromLayers, List.map_eq_nil_iff, List.filter_eq_nil_iff]
  intro d member
  rw [own d member]
  exact Bool.false_ne_true

/-- While the application runs every layer is open, and has seen the start if it awaits one. -/
theorem enter_of_running {cancelCalled passes passes' started : Bool} {call : AppCall}
    (running : call.app.result = none) :
    enterContext nest started
        (enterTimeout nest cancelCalled passes started (enterBody nest passes' started call)) =
      ⟨keep false (started || call.app.starts), ⟨keep passes (started || call.app.starts),
        ⟨keep passes' (started || call.app.starts), call⟩⟩⟩ := by
  have body : enterBody nest passes' started call =
      ⟨keep passes' (started || call.app.starts), call⟩ := enter_of_result_eq_none running
  have inBody : BodyCall.current ⟨keep passes' (started || call.app.starts), call⟩ = call.app :=
    current_keep
  have timeout : enterTimeout nest cancelCalled passes started
      ⟨keep passes' (started || call.app.starts), call⟩ =
        ⟨keep passes (started || call.app.starts),
          ⟨keep passes' (started || call.app.starts), call⟩⟩ := by
    rw [enterTimeout, enter_of_result_eq_none (by rw [inBody]; exact running), inBody]
  have inTimeout : TimeoutCall.current ⟨keep passes (started || call.app.starts),
      ⟨keep passes' (started || call.app.starts), call⟩⟩ = call.app := current_keep.trans inBody
  rw [body, timeout, enterContext,
    enter_of_result_eq_none (by rw [inTimeout]; exact running), inTimeout]

/-- Whatever the application does next, the request enters a stage. -/
theorem stage_of_enter {passes passes' started : Bool} {call : AppCall}
    (layers : t.call = enterContext nest started
      (enterTimeout nest t.cancelCalled passes started (enterBody nest passes' started call)))
    (inScope : t.cancelCalled = true → passes = false)
    (flag : started = t.handed.any SendMessage.isStart)
    (own : ∀ d ∈ t.reached, d.own = true)
    (count : t.starts ≤ t.handed.countP SendMessage.isStart)
    (delivered : clean → t.handed.any SendMessage.isStart = true → t.appStarted = true) :
    Stage nest clean t := by
  have app : t.app = call.app := by
    simp only [State.app, layers, enterContext, enterTimeout, enterBody, call_enter]
  have answered (set : started = true) :
      clean → t.stopped → t.appStarted = false → CompleteError t.fromLayers := by
    intro uncut _ unstarted
    rw [flag] at set
    exact absurd (delivered uncut set) (by rw [unstarted]; exact Bool.false_ne_true)
  have response {messages : List SendMessage} (complete : CompleteError messages) :
      CompleteError (t.fromLayers ++ messages.map (nest.context.sendWrapper nest.ctx)) := by
    rw [fromLayers_of_own own, List.nil_append]
    exact complete.map_sendWrapper
  have heads {messages : List SendMessage} (complete : CompleteError messages) :
      ∀ message later, messages = message :: later → (started || message.isStart) = true := by
    rintro message later rfl
    rw [complete.isStart_head, Bool.or_true]
  cases result : call.app.result with
  | none =>
      rw [enter_of_running result] at layers
      exact .running inScope layers (by rw [flag]) result own count delivered
  | some ended =>
      cases ended with
      | ok value =>
          have body : (enterBody nest passes' started call).current = .done :=
            current_enter_of_done (App.eq_done_of_result result)
          refine stage_of_done (current_enter_of_done body) layers (.inr count) fun _ stopped => ?_
          rw [State.stopped, app, result, Bool.and_false] at stopped
          cases stopped
      | error e =>
          have unsent (unset : started = false) : Quiet t :=
            quiet_of_count (flag.symm.trans unset) count
          rcases body_of_raise nest passes' started (App.eq_raise_of_result result) with
            body | ⟨set, body⟩ | ⟨unset, body⟩
          · rcases timeout_of_raise nest t.cancelCalled passes started body with
              ⟨timeout, passed⟩ | ⟨set, timeout⟩ | ⟨unset, timeout⟩
            · rcases context_of_raise nest started timeout with ⟨context, set⟩ | ⟨unset, context⟩
              · have mode : t.call.mode = .finishing (.raise e) := by rw [layers, context]
                refine .finishing mode rfl (.inr count) fun uncut stopped => ?_
                -- only a CancelledError gets past all three layers before a start
                cases exception : e.isException with
                | true => exact answered (set exception) uncut stopped
                | false =>
                    rw [State.stopped, app, result, Bool.and_eq_true_iff] at stopped
                    have expired : t.cancelCalled = true := by
                      simpa [exception] using stopped.2
                    have other : ¬ e.isException = true := by
                      rw [exception]
                      exact Bool.false_ne_true
                    exact absurd (eq_cancelledError_of_not_isException other)
                      (passed (inScope expired) expired)
              · rw [context] at layers
                refine stage_of_context layers (unsent unset) ?_
                exact response (completeError_problemResponse (by decide))
            · exact stage_of_done timeout layers (.inr count) (answered set)
            · rw [timeout] at layers
              have complete : CompleteError (nest.timeout.sendTimeout nest.ctx nest.scope) :=
                completeError_problemResponse (by decide)
              exact stage_of_timeout layers (heads complete) (unsent unset) (response complete)
          · exact stage_of_done (current_enter_of_done body) layers (.inr count) (answered set)
          · rw [body] at layers
            have complete : CompleteError (nest.limit.reject nest.ctx nest.scope) :=
              completeError_problemResponse (by decide)
            exact stage_of_body inScope layers (heads complete) (unsent unset) (response complete)

/-! ### Steps -/

variable (nest) in
/-- **The request as it arrives is in a stage.** -/
theorem stage_start : Stage nest clean nest.start := by
  have context (inner : TimeoutCall) : nest.context.call nest.ctx nest.scope inner =
      enterContext nest false inner := by
    rw [RequestContextMiddleware.call, if_neg (not_not_intro nest.http)]
    rfl
  obtain ⟨passes, timeout⟩ : ∃ passes, ∀ inner, nest.timeout.call nest.ctx nest.scope inner =
      enterTimeout nest false passes false inner := by
    by_cases out : nest.scope.type ≠ .http ∨ nest.scope.path ∈ nest.timeout.excludePaths
    · exact ⟨true, fun inner => if_pos out⟩
    · exact ⟨false, fun inner => if_neg out⟩
  have refused (never : nest.start.cancelCalled = true) : passes = false :=
    absurd never Bool.false_ne_true
  have nothing : ∀ d ∈ nest.start.reached, d.own = true := fun _ member =>
    absurd member List.not_mem_nil
  by_cases out : nest.scope.type ≠ .http ∨ nest.scope.path ∈ nest.limit.excludePaths
  · have layers : nest.start.call = enterContext nest false
        (enterTimeout nest false passes false (enterBody nest true false ⟨none, nest.app⟩)) := by
      rw [Nest.start, BodySizeLimitMiddleware.call, if_pos out, timeout, context]
      rfl
    exact stage_of_enter layers refused rfl nothing (Nat.zero_le _)
      fun _ set => absurd set Bool.false_ne_true
  · by_cases large : ∃ declared ∈ contentLength nest.scope, (nest.limit.maxBytes : ℤ) < declared
    · have layers : nest.start.call = enterContext nest false (enterTimeout nest false passes false
          ⟨.finishing (.sending (nest.limit.reject nest.ctx nest.scope)), ⟨some 0, nest.app⟩⟩) := by
        rw [Nest.start, BodySizeLimitMiddleware.call, if_neg out, if_pos large, timeout, context]
      have complete : CompleteError (nest.limit.reject nest.ctx nest.scope) :=
        completeError_problemResponse (by decide)
      refine stage_of_body refused layers ?_ ⟨rfl, rfl⟩ complete.map_sendWrapper
      rintro message later same
      rw [same] at complete
      exact complete.isStart_head
    · have layers : nest.start.call = enterContext nest false (enterTimeout nest false passes false
          (enterBody nest false false ⟨some 0, nest.app⟩)) := by
        rw [Nest.start, BodySizeLimitMiddleware.call, if_neg out, if_neg large, timeout, context]
        rfl
      exact stage_of_enter layers refused rfl nothing (Nat.zero_le _)
        fun _ set => absurd set Bool.false_ne_true

theorem step_answer {a : Answer} :
    nest.step s (.answer a) = some t ↔
      (a.isCancelled = true → s.openScope.isSome = true ∧ s.cancelCalled = true) ∧
        ∃ call, nest.move s.cancelCalled s.call a = some call ∧
          t = { s with call, handed := s.handed ++ Nest.hand s,
                       reached := s.reached ++ nest.deliver s a } := by
  simp only [Nest.step]
  by_cases refused : a.isCancelled = true ∧ ¬ (s.openScope.isSome = true ∧ s.cancelCalled = true)
  · rw [if_pos refused]
    constructor
    · intro taken
      cases taken
    · intro moved
      exact absurd (moved.1 refused.1) refused.2
  · rw [if_neg refused, Option.map_eq_some_iff]
    rw [not_and_not_right] at refused
    constructor
    · rintro ⟨call, moved, rfl⟩
      exact ⟨refused, call, moved, rfl⟩
    · rintro ⟨_, call, moved, rfl⟩
      exact ⟨call, moved, rfl⟩

variable (nest s) in
theorem isStart_outgoing (message : SendMessage) :
    (nest.outgoing s message).isStart = message.isStart := by
  rw [Nest.outgoing]
  cases s.call.mode <;> cases message <;> rfl

/-- A message from inside the request context gets the request id. -/
theorem outgoing_of_keep {started : Bool} {inner : TimeoutCall}
    (layers : s.call = ⟨keep false started, inner⟩) :
    nest.outgoing s = nest.context.sendWrapper nest.ctx := by
  funext message
  rw [Nest.outgoing, layers]
  rfl

theorem running_of_layers {passes passes' started : Bool} {call : AppCall}
    (layers : s.call = ⟨keep false started, ⟨keep passes started, ⟨keep passes' started, call⟩⟩⟩) :
    s.running = true ∧ s.app = call.app ∧ s.current = call.app := by
  refine ⟨?_, ?_, ?_⟩
  · rw [State.running, layers]
    cases passes <;> cases passes' <;> rfl
  · rw [State.app, layers]
  · simp only [State.current, layers, TimeoutCall.current, BodyCall.current, current_keep]

/-- The application has moved: what its await came back with was for it. -/
theorem move_pending {call after : AppCall} {a : Answer} {message : SendMessage}
    (moved : nest.limit.move call a = some after) (pending : call.app.pending = some message) :
    a = .sent ∨ ∃ forwarded, a = .cancelled forwarded := by
  obtain ⟨received, app⟩ := call
  cases app with
  | send message' k =>
      cases a with
      | sent => exact .inl rfl
      | cancelled forwarded => exact .inr ⟨forwarded, rfl⟩
      | received message' => cases received <;> cases moved
      | slept fault => cases received <;> cases fault <;> cases moved
  | _ => cases pending

/-- What an await of the running application hands over and what of that reaches the server. -/
theorem deliver_of_running {call : AppCall} {a : Answer} (running : s.running = true)
    (app : s.app = call.app) (current : s.current = call.app) :
    Nest.hand s = call.app.pending.toList ∧
    nest.deliver s a = if Nest.forwarded a
      then call.app.pending.toList.map fun message => ⟨true, nest.outgoing s message⟩ else [] := by
  refine ⟨by rw [Nest.hand, if_pos running, app], ?_⟩
  rw [Nest.deliver, current, running]
  cases call.app.pending with
  | none => exact (ite_self _).symm
  | some message => rfl

/-- A start of the application that is not cut off is forwarded. -/
theorem forwarded_of_not_cut {call after : AppCall} {a : Answer} {message : SendMessage}
    (running : s.running = true) (current : s.current = call.app)
    (moved : nest.limit.move call a = some after) (pending : call.app.pending = some message)
    (start : message.isStart = true) (whole : ¬ Cut s (.answer a)) : Nest.forwarded a = true := by
  rcases move_pending moved pending with rfl | ⟨forwarded, rfl⟩
  · rfl
  · cases forwarded with
    | true => rfl
    | false =>
        refine absurd ⟨message, ?_, ?_⟩ whole
        · rw [current, pending]
          rfl
        · rw [if_pos running]
          exact ⟨start, rfl⟩

/-- While the application runs, an await comes back for it. -/
theorem stage_of_running {passes passes' started : Bool} {call : AppCall} {a : Answer}
    (inScope : s.cancelCalled = true → passes = false)
    (layers : s.call = ⟨keep false started, ⟨keep passes started, ⟨keep passes' started, call⟩⟩⟩)
    (flag : started = (s.handed.any SendMessage.isStart || call.app.starts))
    (own : ∀ d ∈ s.reached, d.own = true)
    (count : s.starts ≤ s.handed.countP SendMessage.isStart)
    (delivered : clean → s.handed.any SendMessage.isStart = true → s.appStarted = true)
    (taken : nest.step s (.answer a) = some t) :
    Stage nest (clean ∧ ¬ Cut s (.answer a)) t := by
  obtain ⟨_, moved', moved, rfl⟩ := step_answer.mp taken
  obtain ⟨running, app, current⟩ := running_of_layers layers
  rw [Nest.move, layers, answer_keep, Nest.moveTimeout, answer_keep, Nest.moveBody, answer_keep]
    at moved
  simp only [Option.map_map, Option.map_eq_some_iff] at moved
  obtain ⟨after, moved, rfl⟩ := moved
  obtain ⟨hand, deliver⟩ : _ ∧ nest.deliver s a = _ := deliver_of_running running app current
  refine stage_of_enter rfl inScope ?_ ?_ ?_ ?_
  · rw [flag, List.any_append, hand, App.starts]
    cases call.app.pending <;> simp
  · intro d member
    rcases List.mem_append.mp member with before | now
    · exact own d before
    · rw [deliver] at now
      split at now
      · obtain ⟨message, _, rfl⟩ := List.mem_map.mp now
        rfl
      · cases now
  · rw [State.starts, List.countP_append, List.countP_append, hand, deliver]
    refine Nat.add_le_add count ?_
    split
    · rw [List.countP_map]
      refine Nat.le_of_eq (List.countP_congr fun message _ => ?_)
      exact iff_of_eq (congrArg (· = true) (isStart_outgoing nest s message))
    · exact Nat.zero_le _
  · rintro ⟨uncut, whole⟩ set
    rw [State.appStarted, List.any_append, Bool.or_eq_true_iff]
    rw [List.any_append, Bool.or_eq_true_iff] at set
    rcases set with before | now
    · exact .inl (delivered uncut before)
    · refine .inr ?_
      rw [hand] at now
      cases pending : call.app.pending with
      | none => rw [pending] at now; cases now
      | some message =>
          have start : message.isStart = true := by simpa [pending] using now
          have sent := forwarded_of_not_cut running current moved pending start whole
          rw [deliver, if_pos sent, pending]
          simp [isStart_outgoing, start]

/-- What a message of a layer leaves behind. -/
theorem reply_delivered {message : SendMessage} {rest : List SendMessage} {a : Answer}
    {call : Layer TimeoutCall} (place : Place s (message :: rest)) (quiet : Quiet s)
    (after : t = { s with call, handed := s.handed ++ Nest.hand s,
                          reached := s.reached ++ nest.deliver s a }) :
    Quiet t ∧ t.handed = s.handed ∧
      t.fromLayers =
        s.fromLayers ++ if Nest.forwarded a then [nest.outgoing s message] else [] := by
  have pending : s.current.pending = some message := by rw [place.current]; rfl
  have hand : Nest.hand s = [] := by rw [Nest.hand, place.running, if_neg Bool.false_ne_true]
  have deliver : nest.deliver s a =
      if Nest.forwarded a then [⟨false, nest.outgoing s message⟩] else [] := by
    rw [Nest.deliver, pending, place.running]
  have handed : t.handed = s.handed := by rw [after, hand, List.append_nil]
  refine ⟨⟨by rw [handed]; exact quiet.handed, ?_⟩, handed, ?_⟩
  · rw [after, State.appStarted, List.any_append, deliver, Bool.or_eq_false_iff]
    refine ⟨quiet.reached, ?_⟩
    split <;> rfl
  · rw [after, State.fromLayers, List.filter_append, List.map_append, deliver, ← State.fromLayers]
    split <;> rfl

/-- What a layer has sent is whole if the cancellation cuts nothing off: it came at the last
message, and that was sent. -/
theorem complete_of_not_cut {message : SendMessage} {rest : List SendMessage} {forwarded : Bool}
    (running : s.running = false) (pending : s.current.pending = some message)
    (complete : CompleteError
      (s.fromLayers ++ nest.outgoing s message :: rest.map (nest.outgoing s)))
    (whole : ¬ Cut s (.answer (.cancelled forwarded))) :
    CompleteError (s.fromLayers ++
      if Nest.forwarded (.cancelled forwarded) then [nest.outgoing s message] else []) := by
  have kept : message.isStart = false ∧ forwarded = true := by
    by_contra other
    refine whole ⟨message, pending, ?_⟩
    rw [running, if_neg Bool.false_ne_true]
    cases start : message.isStart with
    | true => exact .inl rfl
    | false =>
        cases forwarded with
        | false => exact .inr rfl
        | true => exact absurd ⟨start, rfl⟩ other
  rcases complete.split with ⟨_, start, _⟩ | ⟨_, _, last⟩
  · rw [isStart_outgoing, kept.1] at start
    cases start
  · rw [last] at complete
    rw [kept.2]
    exact complete

/-- While a layer answers, an await comes back for it. -/
theorem stage_of_replying {message : SendMessage} {rest : List SendMessage} {a : Answer}
    (place : Place s (message :: rest)) (quiet : Quiet s)
    (complete : CompleteError (s.fromLayers ++ (message :: rest).map (nest.outgoing s)))
    (taken : nest.step s (.answer a) = some t) :
    Stage nest (clean ∧ ¬ Cut s (.answer a)) t := by
  obtain ⟨allowed, call, moved, after⟩ := step_answer.mp taken
  obtain ⟨still, handed, fromLayers⟩ := reply_delivered place quiet after
  rw [List.map_cons] at complete
  have sent (came : a = .sent) :
      CompleteError (t.fromLayers ++ rest.map (nest.outgoing s)) := by
    rw [fromLayers, came, Nest.forwarded, if_pos rfl, List.append_assoc]
    exact complete
  have pending : s.current.pending = some message := by rw [place.current]; rfl
  have running := place.running
  have outside (closed : s.openScope = none) : a.isCancelled = false := by
    cases cancelled : a.isCancelled with
    | false => rfl
    | true =>
        rw [closed] at allowed
        exact absurd (allowed cancelled).1 Bool.false_ne_true
  cases place with
  | context layers =>
      have uncancelled := outside (by rw [State.openScope, layers])
      rw [Nest.move, layers, answer_finishing] at moved
      obtain ⟨app, answered, rfl⟩ := Option.map_eq_some_iff.mp moved
      obtain ⟨_, _, same, ⟨rfl, rfl⟩ | ⟨_, rfl, _⟩⟩ := App.answer_sending answered
      · obtain ⟨rfl, rfl⟩ := List.cons.inj same
        have plain : nest.outgoing s = id := by
          funext m
          rw [Nest.outgoing, layers]
          rfl
        have complete := sent rfl
        rw [plain, List.map_id] at complete
        exact stage_of_context (by rw [after]) still complete
      · cases uncancelled
  | timeout layers =>
      have uncancelled := outside (by rw [State.openScope, layers]; rfl)
      rw [Nest.move, layers, answer_keep, Nest.moveTimeout, answer_finishing] at moved
      simp only [Option.map_map, Option.map_eq_some_iff] at moved
      obtain ⟨app, answered, rfl⟩ := moved
      obtain ⟨_, _, same, ⟨rfl, rfl⟩ | ⟨_, rfl, _⟩⟩ := App.answer_sending answered
      · obtain ⟨rfl, rfl⟩ := List.cons.inj same
        have complete := sent rfl
        rw [outgoing_of_keep layers] at complete
        exact stage_of_timeout (by rw [after]; rfl) (fun _ _ _ => Bool.true_or _) still complete
      · cases uncancelled
  | @body passes call inScope layers =>
      rw [Nest.move, layers, answer_keep, Nest.moveTimeout, answer_keep, Nest.moveBody,
        answer_finishing] at moved
      simp only [Option.map_map, Option.map_eq_some_iff] at moved
      obtain ⟨app, answered, rfl⟩ := moved
      obtain ⟨_, _, same, ⟨rfl, rfl⟩ | ⟨forwarded, rfl, rfl⟩⟩ := App.answer_sending answered
      · obtain ⟨rfl, rfl⟩ := List.cons.inj same
        have complete := sent rfl
        rw [outgoing_of_keep layers] at complete
        exact stage_of_body (by rw [after]; exact inScope) (by rw [after]; rfl)
          (fun _ _ _ => Bool.true_or _) still complete
      · -- the scope that cancels is the one whose flag is set
        obtain ⟨_, expired⟩ := allowed rfl
        have inner : (enterTimeout nest true false true
            ⟨.finishing (.raise .cancelledError), call⟩).current = .done := rfl
        have closed : t.call = enterContext nest true (enterTimeout nest true false true
            ⟨.finishing (.raise .cancelledError), call⟩) := by
          rw [after, expired, inScope expired]
          rfl
        refine stage_of_done inner closed (.inl ?_) ?_
        · rw [State.starts_eq_of_appStarted still.reached, fromLayers]
          exact complete.countP_cut_le _
        · rintro ⟨_, whole⟩ _ _
          rw [fromLayers]
          exact complete_of_not_cut running pending complete whole

/-- **Every step leads from a stage to a stage**, in which all responses are whole if no
response was cut off before and none is by this step. -/
theorem stage_step {l : Label} (stage : Stage nest clean s) (taken : nest.step s l = some t) :
    Stage nest (clean ∧ ¬ Cut s l) t := by
  cases l with
  | answer a =>
      cases stage with
      | running inScope layers flag _ own count delivered =>
          exact stage_of_running inScope layers flag own count delivered taken
      | replying place quiet complete => exact stage_of_replying place quiet complete taken
      | @finishing rest mode atEnd =>
          obtain ⟨_, call, moved, _⟩ := step_answer.mp taken
          rw [Nest.move, answer, mode] at moved
          obtain ⟨_, answered, _⟩ := Option.map_eq_some_iff.mp moved
          rw [App.result_eq_none_of_answer answered] at atEnd
          cases atEnd
  | expire =>
      simp only [Nest.step] at taken
      split at taken
      · rename_i open_
        obtain rfl := Option.some.inj taken
        cases stage with
        | @running passes _ _ _ _ layers flag awaits own count delivered =>
            have inside : passes = false := by
              cases passes with
              | false => rfl
              | true =>
                  have closed : s.openScope = none := by rw [State.openScope, layers]; rfl
                  rw [closed] at open_
                  cases open_.1
            exact .running (fun _ => inside) layers flag awaits own count
              fun uncut => delivered uncut.1
        | replying place quiet complete =>
            have other : s.openScope ≠ some false := by
              cases place with
              | @body passes _ _ layers =>
                  rw [State.openScope, layers]
                  cases passes <;> simp [keep]
              | timeout layers => rw [State.openScope, layers]; simp [keep]
              | context layers => rw [State.openScope, layers]; simp
            exact absurd open_.1 other
        | finishing mode =>
            rw [State.openScope, mode] at open_
            cases open_.1
      · cases taken

end Stages

/-! ## The property along every run -/

/-- **At most one start reaches the server**, in every run in which the application hands
over at most one. -/
theorem at_most_one_start {nest : Nest} {s : State} {ls : List Label}
    (run : exec nest.step nest.start ls = some s) (once : s.handed.countP SendMessage.isStart ≤ 1) :
    s.starts ≤ 1 := by
  have stage : Stage nest False s :=
    exec_invariant_always (fun s l next stage taken => by
      have after := stage_step stage taken
      rwa [false_and] at after) run (stage_start nest)
  exact stage.single once

/-- **One response for each request**, as long as no cancellation cuts a response off. -/
theorem one_response {nest : Nest} {ls : List Label}
    (uncut : EveryStep nest.step (fun s l => ¬ Cut s l) nest.start ls) :
    EveryState nest.step OneResponse nest.start ls := by
  have stages : EveryState nest.step (Stage nest True) nest.start ls :=
    everyState_of_preserved (fun s l next whole stage taken => by
      have after := stage_step stage taken
      rwa [eq_true (⟨trivial, whole⟩ : True ∧ ¬ Cut s l)] at after) uncut (stage_start nest)
  exact stages.mono fun _ => Stage.oneResponse

/-! ## A response that is cut off -/

/-- A service whose handler waits for something and answers. -/
def slow : Nest where
  scope := { method := "GET", path := "/report" }
  generated := encode "r0"
  rendering := ⟨fun _ => encode "problem", 0⟩
  app := .sleep fun result =>
    match result with
    | .ok _ => .sending [.start 200 [], .body (encode "done") false]
    | .error e => .raise e

/-- A service whose handler reads its body, of at most four bytes. -/
def upload : Nest where
  limit := { maxBytes := 4 }
  scope := { method := "POST", path := "/upload" }
  generated := encode "r0"
  rendering := ⟨fun _ => encode "problem", 0⟩
  app := .receive fun result =>
    match result with
    | .ok _ => .sending [.start 201 [], .body [] false]
    | .error e => .raise e

/-- The deadline expires just as the handler goes on, and the cancellation comes back from
the `send` of its start message: nothing reaches the server. Where it comes back from the
`send` of the 413, only the start of that response does. -/
theorem start_cut_off :
    (∃ s ∈ exec slow.step slow.start
        [.expire, .answer (.slept none), .answer (.cancelled false)],
      s.ended ∧ s.stopped ∧ s.handed.countP SendMessage.isStart = 1 ∧ s.reached = [] ∧
        ¬ OneResponse s) ∧
      ∃ s ∈ exec upload.step upload.start
          [.expire, .answer (.received (.request (encode "12345") false)), .answer .sent,
            .answer (.cancelled false)],
        s.ended ∧ s.stopped ∧ s.fromLayers.length = 1 ∧ ¬ OneResponse s := by
  have missing {s : State} (ended : s.ended) (stopped : s.stopped)
      (unstarted : s.appStarted = false) (short : s.fromLayers.length < 2) : ¬ OneResponse s := by
    rintro ⟨_, answered⟩
    obtain ⟨_, _, _, _, same⟩ := answered ended stopped unstarted
    rw [same] at short
    exact Nat.lt_irrefl 2 short
  constructor
  · obtain ⟨s, run, ended, stopped, once, empty, unstarted, short⟩ : ∃ s ∈ exec slow.step slow.start
        [.expire, .answer (.slept none), .answer (.cancelled false)],
        s.ended ∧ s.stopped ∧ s.handed.countP SendMessage.isStart = 1 ∧ s.reached = [] ∧
          s.appStarted = false ∧ s.fromLayers.length < 2 := by
      decide +kernel
    exact ⟨s, run, ended, stopped, once, empty, missing ended stopped unstarted short⟩
  · obtain ⟨s, run, ended, stopped, once, unstarted⟩ : ∃ s ∈ exec upload.step upload.start
        [.expire, .answer (.received (.request (encode "12345") false)), .answer .sent,
          .answer (.cancelled false)],
        s.ended ∧ s.stopped ∧ s.fromLayers.length = 1 ∧ s.appStarted = false := by
      decide +kernel
    exact ⟨s, run, ended, stopped, once,
      missing ended stopped unstarted (by rw [once]; decide)⟩

/-- An upload whose answer is cut off, and a cancelled handler that is answered. -/
theorem upload_starts_once :
    (∃ s ∈ exec upload.step upload.start
      [.expire, .answer (.received (.request (encode "12345") false)), .answer .sent,
        .answer (.cancelled false)], s.ended ∧ s.starts ≤ 1) ∧
    ∃ s ∈ exec slow.step slow.start
      [.expire, .answer (.cancelled false), .answer .sent, .answer .sent],
        s.ended ∧ s.starts ≤ 1 := by
  constructor
  · obtain ⟨s, run, ended, once⟩ : ∃ s ∈ exec upload.step upload.start
        [.expire, .answer (.received (.request (encode "12345") false)), .answer .sent,
          .answer (.cancelled false)],
        s.ended ∧ s.handed.countP SendMessage.isStart ≤ 1 := by
      decide +kernel
    exact ⟨s, run, ended, at_most_one_start run once⟩
  · obtain ⟨s, run, ended, once⟩ : ∃ s ∈ exec slow.step slow.start
        [.expire, .answer (.cancelled false), .answer .sent, .answer .sent],
        s.ended ∧ s.handed.countP SendMessage.isStart ≤ 1 := by
      decide +kernel
    exact ⟨s, run, ended, at_most_one_start run once⟩

/-- A handler that is cancelled while it waits is answered with a whole 504. -/
theorem slow_answered :
    (∃ s ∈ exec slow.step slow.start
        [.expire, .answer (.cancelled false), .answer .sent, .answer .sent],
      s.ended ∧ s.stopped ∧ s.reached.length = 2) ∧
      EveryState slow.step OneResponse slow.start
        [.expire, .answer (.cancelled false), .answer .sent, .answer .sent] := by
  refine ⟨?_, one_response ?_⟩
  all_goals decide +kernel

end PyCommon.Middleware
