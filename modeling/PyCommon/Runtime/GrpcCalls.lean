import PyCommon.Runtime.GrpcInterceptors

/-!
# Calls that are served

A handler behind both interceptors shows its caller what it shows by itself. It runs with
the id of the call bound; when it is over, the call is recorded once and the id that was
bound before is back (`unary_served`, `stream_served`).

A stream has one exception to this. When an exception is thrown into it where a message
was handed out, as happens when a stream is closed early, the outer loop ends there: the
id is put back, but neither the handler nor the interceptor inside is resumed, and the
call is not recorded. It is recorded when the generator inside is closed in its turn
(`abandoned_recorded`).
-/

set_option autoImplicit false

namespace PyCommon.Grpc

open StepSystem Coroutines

variable {Await Answer Message Error Result : Type}

/-! ## Loops -/

section Loops

variable {State : Type} {typeError : Error} {b : StreamBehavior Await Answer Message Error}

/-- The run of a loop over an async generator, where the run of the generator is here. -/
def looped (c : Config World State Await Message Error Result) :
    Config World (Iterating State) Await Message Error Result where
  world := c.world
  position := match c.position with
    | .fresh _ => .fresh .calling
    | .rested (.awaits awaited s) => .rested (.awaits awaited (.looping (.inl s)))
    | .rested (.yields message s) => .rested (.yields message (.looping (.inr s)))
    | .rested (.ends outcome) => .rested (.ends outcome)
  shown := c.shown

theorem settle_looping (shown : List (Await ⊕ Message))
    (done : World × Rest State Await Message Error Unit) :
    settle shown ((relay.go done).1, (relay.go done).2.map Iterating.looping) =
      looped (settle shown done) := by
  obtain ⟨world, rest⟩ := done
  cases rest <;> rfl

theorem step_looped {start : State} {code : Code World State Await Answer Message Error Unit}
    {c : Config World State Await Message Error Unit}
    (begins : ∀ s, c.position = .fresh s → s = start) (l : Resumption World Answer Error) :
    step ((StreamBehavior.ofGenerator start code).stream typeError) (looped c) l =
      (abandoning code c l).map looped := by
  obtain ⟨world, position, shown⟩ := c
  obtain ⟨meanwhile, input⟩ := l
  cases position with
  | fresh s =>
      obtain rfl := begins s rfl
      cases input with
      | answer given => rfl
      | next => exact congrArg some (settle_looping ..)
      | thrown e => rfl
  | rested rest =>
      cases rest with
      | awaits awaited s =>
          cases input with
          | next => rfl
          | _ => exact congrArg some (settle_looping ..)
      | yields message s =>
          cases input with
          | answer given => rfl
          | next => exact congrArg some (settle_looping ..)
          | thrown e => rfl
      | ends outcome => cases input <;> rfl

theorem begun_of_abandoning {code : Code World State Await Answer Message Error Result}
    {c next : Config World State Await Message Error Result} {l : Resumption World Answer Error}
    (taken : abandoning code c l = some next) (s : State) : next.position ≠ .fresh s := by
  by_cases abandons : Abandons c l
  · obtain ⟨message, s, e, rests, thrown⟩ := abandons_iff.mp abandons
    rw [abandoning_yields rests thrown] at taken
    obtain rfl := Option.some.inj taken
    exact fun fresh => by cases fresh
  · exact begun_of_step ((abandoning_of_not abandons).symm.trans taken) s

variable (typeError) in
/-- A loop over a function that is an async generator. -/
theorem exec_looped (start : State) (code : Code World State Await Answer Message Error Unit)
    (world : World) (ls : List (Resumption World Answer Error)) :
    exec (step ((StreamBehavior.ofGenerator start code).stream typeError))
        ⟨world, .fresh .calling, []⟩ ls =
      (exec (abandoning code) ⟨world, .fresh start, []⟩ ls).map looped := by
  have begins : ∀ s, (⟨world, .fresh start, []⟩ :
      Config World State Await Message Error Unit).position = .fresh s → s = start := by
    intro s fresh
    exact (Position.fresh.inj fresh).symm
  exact exec_map (fun _ _ _ _ taken s fresh => absurd fresh (begun_of_abandoning taken s))
    (fun _ l begins => step_looped begins l) begins ls

theorem loop_yields {s : b.State ⊕ b.State} {input : Input Answer Error} {world : World}
    {message : Message} {s' : Iterating b.State}
    (yields : (b.loop s input world).2 = .yields message s') : ∃ r, s' = .looping (.inr r) := by
  have gone : ∀ done : World × Rest b.State Await Message Error Unit,
      (relay.go done).2.map Iterating.looping = .yields message s' →
        ∃ r, s' = .looping (.inr r) := by
    rintro ⟨world, rest⟩ same
    cases rest with
    | awaits awaited s => cases same
    | yields message s =>
        cases same
        exact ⟨s, rfl⟩
    | ends outcome => cases same
  cases s with
  | inl s => exact gone _ yields
  | inr s =>
      cases input with
      | thrown e => cases yields
      | _ => exact gone _ yields

theorem awaited_yields {done : World × Rest b.State Await Empty Error (Option b.State)}
    {message : Message} {s' : Iterating b.State}
    (yields : (b.awaited typeError done).2 = .yields message s') : ∃ r, s' = .looping (.inr r) := by
  unfold StreamBehavior.awaited at yields
  split at yields
  · cases yields
  · cases yields
  · exact loop_yields yields
  · cases yields

/-- A stream hands its messages out in the body of its loop. -/
theorem stream_yields {s : Iterating b.State} {input : Input Answer Error} {world : World}
    {message : Message} {s' : Iterating b.State}
    (yields : (b.stream typeError s input world).2 = .yields message s') :
    ∃ r, s' = .looping (.inr r) := by
  unfold StreamBehavior.stream at yields
  split at yields
  · split at yields
    · cases yields
    · exact loop_yields yields
    · exact awaited_yields yields
    · cases yields
  · exact awaited_yields yields
  · exact loop_yields yields

/-- Where a message was handed out, the loop is in its body. -/
def Looping (c : Config World (Iterating b.State) Await Message Error Unit) : Prop :=
  ∀ message s, c.position = .rested (.yields message s) → ∃ r, s = .looping (.inr r)

theorem looping_step {c next : Config World (Iterating b.State) Await Message Error Unit}
    {l : Resumption World Answer Error}
    (taken : step (b.stream typeError) c l = some next) : Looping next := by
  intro message s rests
  unfold step at taken
  split at taken
  · obtain rfl := Option.some.inj taken
    cases rests
  · obtain ⟨state, -, rfl⟩ := Option.map_eq_some_iff.mp taken
    exact stream_yields (Position.rested.inj rests)

/-- A stream abandons its handler itself. -/
theorem abandoning_stream {c : Config World (Iterating b.State) Await Message Error Unit}
    (looping : Looping c) (l : Resumption World Answer Error) :
    abandoning (b.stream typeError) c l = step (b.stream typeError) c l := by
  by_cases abandons : Abandons c l
  · obtain ⟨message, s, e, rests, thrown⟩ := abandons_iff.mp abandons
    obtain ⟨r, rfl⟩ := looping message s rests
    rw [abandoning_yields rests thrown, step, rests, thrown]
    rfl
  · exact abandoning_of_not abandons

variable (typeError b) in
theorem exec_abandoning_stream (world : World) (ls : List (Resumption World Answer Error)) :
    exec (abandoning (b.stream typeError)) ⟨world, .fresh .calling, []⟩ ls =
      exec (step (b.stream typeError)) ⟨world, .fresh .calling, []⟩ ls := by
  have looping : Looping (b := b) ⟨world, .fresh .calling, []⟩ := by
    intro message s rests
    cases rests
  exact exec_congr (fun _ _ _ _ taken => looping_step taken)
    (fun _ l looping => abandoning_stream looping l) looping ls

end Loops

/-! ## What is seen of a call -/

variable (typeError : Error) (qualname : Error → String) (details : HandlerCallDetails)
  (requestId : String)

/-- What others see of a run: what it has shown, how it has ended, and the world. -/
def seen {State : Type} (c : Config World State Await Message Error Result) :
    List (Await ⊕ Message) × Option (Except Error Result) × World :=
  (c.shown, c.position.outcome, c.world)

/-- What is to be seen of a call that began in this world, where this is seen of its handler. A
call that is over has been recorded, if it was kept to its end. -/
def servedAs (kept : Prop) [Decidable kept] (began : World)
    (handler : List (Await ⊕ Message) × Option (Except Error Result) × World) :
    List (Await ⊕ Message) × Option (Except Error Result) × World :=
  match handler with
  | (shown, none, world) => (shown, none, world)
  | (shown, some outcome, world) =>
      (shown, some outcome,
        (if kept then record qualname details began.perfCounter outcome world else world).bind
          began.currentRequestId)

/-! ## A single response -/

/-- Both interceptors around a coroutine. -/
def servedUnary (b : UnaryBehavior Await Answer Error Result) :
    UnaryBehavior Await Answer Error Result :=
  (requestIdServerInterceptor typeError requestId : Wrapper Await Answer Empty Error Result).unary
    ((metricsServerInterceptor typeError qualname details :
      Wrapper Await Answer Empty Error Result).unary b)

/-- **A call with a single response.** -/
theorem unary_served (b : UnaryBehavior Await Answer Error Result) (world : World)
    (first : World → World) (ls : List (Resumption World Answer Error)) :
    (exec (step (servedUnary typeError qualname details requestId b).code)
        ⟨world, .fresh (servedUnary typeError qualname details requestId b).start, []⟩
        (⟨first, .next⟩ :: ls)).map seen =
      (exec (step b.code) ⟨world, .fresh b.start, []⟩
        (⟨fun world => (first world).bind (some requestId), .next⟩ :: ls)).map fun c =>
          servedAs qualname details True (first world) (seen c) := by
  refine (congrArg (Option.map seen) ((exec_bracket ..).trans
    (congrArg (Option.map _) (exec_bracket ..)))).trans ?_
  rw [Option.map_map, Option.map_map]
  refine congrArg (Option.map · _) (funext fun c => ?_)
  obtain ⟨world, position, shown⟩ := c
  cases position with
  | fresh s => rfl
  | rested rest => cases rest <;> rfl

/-! ## A stream -/

/-- Both interceptors around a streaming behavior. -/
def servedStream (b : StreamBehavior Await Answer Message Error) :
    StreamBehavior Await Answer Message Error :=
  (requestIdServerInterceptor typeError requestId : Wrapper Await Answer Message Error Unit).stream
    ((metricsServerInterceptor typeError qualname details :
      Wrapper Await Answer Message Error Unit).stream b)

/-- The async generator that serves a call before it is begun. -/
def servedStart (b : StreamBehavior Await Answer Message Error) :
    (servedStream typeError qualname details requestId b).State :=
  (none, .calling)

variable {qualname details} in
theorem seen_served {State : Type} (kept : Prop) [Decidable kept] (began : World)
    (c : Config World State Await Message Error Unit) :
    seen (within unbindRequestId began.currentRequestId
        (looped (cut (record qualname details) began.perfCounter kept c))) =
      servedAs qualname details kept began (seen c) := by
  obtain ⟨world, position, shown⟩ := c
  by_cases ends : kept
  · simp only [cut, servedAs, if_pos ends]
    cases position with
    | fresh s => rfl
    | rested rest => cases rest <;> rfl
  · simp only [cut, servedAs, if_neg ends]
    cases position with
    | fresh s => rfl
    | rested rest => cases rest <;> rfl

/-- **A call that streams its response** is recorded if its handler is not abandoned. -/
theorem stream_served (b : StreamBehavior Await Answer Message Error) (world : World)
    (first : World → World) (ls : List (Resumption World Answer Error)) :
    (exec (step (servedStream typeError qualname details requestId b).generator)
        ⟨world, .fresh (servedStart typeError qualname details requestId b), []⟩
        (⟨first, .next⟩ :: ls)).map seen =
      (exec (step (b.stream typeError)) ⟨world, .fresh .calling, []⟩
        (⟨fun world => (first world).bind (some requestId), .next⟩ :: ls)).map fun c =>
          servedAs qualname details
            (EveryStep (step (b.stream typeError)) (fun c l => ¬ Abandons c l)
              ⟨world, .fresh .calling, []⟩
              (⟨fun world => (first world).bind (some requestId), .next⟩ :: ls))
            (first world) (seen c) := by
  -- The loop of the outer interceptor around the bracket of the inner one.
  have inner := (exec_abandoning_bracket startClock (record qualname details) world
    Iterating.calling (fun world => (bindRequestId requestId (first world)).2) ls).trans
      (congrArg (Option.map _) (exec_abandoning_stream typeError b ..))
  have middle := (exec_looped typeError ..).trans (congrArg (Option.map looped) inner)
  have outer := (exec_bracket (bindRequestId requestId) unbindRequestId world Iterating.calling
    first ls).trans (congrArg (Option.map _) middle)
  cases ran : exec (step (b.stream typeError)) ⟨world, .fresh .calling, []⟩
      (⟨fun world => (first world).bind (some requestId), .next⟩ :: ls) with
  | none =>
      exact congrArg (Option.map seen) (outer.trans (congrArg _ (congrArg _ (congrArg _ ran))))
  | some c =>
      have ends := outer.trans (congrArg _ (congrArg _ (congrArg _ ran)))
      exact (congrArg (Option.map seen) ends).trans (congrArg some (seen_served _ _ c))

/-- **A handler that was abandoned** is recorded when the generator around it is closed. -/
theorem abandoned_recorded {b : StreamBehavior Await Answer Message Error} {world : World}
    {first : World → World} {ls : List (Resumption World Answer Error)}
    {c : Config World (Iterating b.State) Await Message Error Unit} {message : Message}
    {s : Iterating b.State}
    (run : exec (step (b.stream typeError)) ⟨world, .fresh .calling, []⟩ (⟨first, .next⟩ :: ls) =
      some c)
    (rests : c.position = .rested (.yields message s)) (meanwhile : World → World) (e : Error) :
    (exec (step (bracket startClock (record qualname details) (b.stream typeError)))
        ⟨world, .fresh (none, .calling), []⟩ (⟨first, .next⟩ :: ls ++ [⟨meanwhile, .thrown e⟩])).map
        seen =
      some (c.shown, some (.error e),
        record qualname details (first world).perfCounter (.error e : Except Error Unit)
          (meanwhile c.world)) := by
  have looping : Looping (b := b) ⟨world, .fresh .calling, []⟩ := by
    intro message s rests
    cases rests
  have there : Looping c := exec_invariant_always (fun _ _ _ _ taken => looping_step taken) run
    looping
  have closes : step (b.stream typeError) c ⟨meanwhile, .thrown e⟩ =
      some (settle c.shown (meanwhile c.world, .ends (.error e))) :=
    (abandoning_stream there _).symm.trans (abandoning_yields rests rfl)
  have ends : exec (step (b.stream typeError)) ⟨world, .fresh .calling, []⟩
      (⟨first, .next⟩ :: (ls ++ [⟨meanwhile, .thrown e⟩])) =
        some (settle c.shown (meanwhile c.world, .ends (.error e))) := by
    rw [← List.cons_append, exec_append_of_eq_some run, exec_cons, closes]
    rfl
  have around := (exec_bracket startClock (record qualname details) world Iterating.calling first
    (ls ++ [⟨meanwhile, .thrown e⟩])).trans (congrArg (Option.map _) ends)
  refine (congrArg (Option.map seen) around).trans (congrArg some (Prod.ext ?_ rfl))
  exact List.append_nil c.shown

/-! ## The id that is bound -/

section Bound

variable {State : Type} {code : Code World State Await Answer Message Error Result}
  {typeError : Error} {qualname : Error → String} {details : HandlerCallDetails}
  {requestId : String}

/-- What happens elsewhere leaves the context variables of a task alone. -/
def Quiet (l : Resumption World Answer Error) : Prop :=
  ∀ world, (l.meanwhile world).currentRequestId = world.currentRequestId

/-- Code that binds no request id of its own. -/
def Keeps (code : Code World State Await Answer Message Error Result) : Prop :=
  ∀ s input world, (code s input world).1.currentRequestId = world.currentRequestId

theorem kept_of_step (keeps : Keeps code) {c next : Config World State Await Message Error Result}
    {l : Resumption World Answer Error} (quiet : Quiet l) (taken : step code c l = some next) :
    next.world.currentRequestId = c.world.currentRequestId := by
  unfold step at taken
  split at taken
  · obtain rfl := Option.some.inj taken
    exact quiet c.world
  · obtain ⟨s, -, rfl⟩ := Option.map_eq_some_iff.mp taken
    exact (keeps ..).trans (quiet c.world)

theorem kept_of_run (keeps : Keeps code) {c last : Config World State Await Message Error Result}
    {ls : List (Resumption World Answer Error)} (quiet : ∀ l ∈ ls, Quiet l)
    (run : exec (step code) c ls = some last) :
    last.world.currentRequestId = c.world.currentRequestId :=
  exec_invariant (fun _ _ _ still same taken => (kept_of_step keeps still taken).trans same) run
    (everyStep_of_forall_mem (fun l member _ => quiet l member) c) rfl

theorem id_of_servedAs {Other : Type} {kept : Prop} [Decidable kept] {began : World}
    {c : Config World State Await Message Error Result}
    {d : Config World Other Await Message Error Result}
    (same : seen d = servedAs qualname details kept began (seen c))
    (bound : c.world.currentRequestId = some requestId) :
    d.world.currentRequestId =
      if d.position.outcome.isSome then began.currentRequestId else some requestId := by
  cases ends : c.position.outcome with
  | none =>
      simp only [seen, ends, servedAs, Prod.mk.injEq] at same
      obtain ⟨-, ended, world⟩ := same
      rw [ended, world]
      exact bound
  | some outcome =>
      simp only [seen, ends, servedAs, Prod.mk.injEq] at same
      obtain ⟨-, ended, world⟩ := same
      rw [ended, world]
      exact World.currentRequestId_bind ..

/-- The id of the call is bound as long as its coroutine runs, and what was bound before is back
when it is over. -/
theorem unary_bound {b : UnaryBehavior Await Answer Error Result} (keeps : Keeps b.code)
    {world : World} {first : World → World} {ls : List (Resumption World Answer Error)}
    (quiet : ∀ l ∈ ls, Quiet l)
    {d : Config World (servedUnary typeError qualname details requestId b).State Await Empty Error
      Result}
    (run : exec (step (servedUnary typeError qualname details requestId b).code)
      ⟨world, .fresh (servedUnary typeError qualname details requestId b).start, []⟩
        (⟨first, .next⟩ :: ls) = some d) :
    d.world.currentRequestId =
      if d.position.outcome.isSome then (first world).currentRequestId else some requestId := by
  have served := unary_served typeError qualname details requestId b world first ls
  rw [run, Option.map_some] at served
  obtain ⟨c, ran, same⟩ := Option.map_eq_some_iff.mp served.symm
  obtain ⟨next, taken, rest⟩ := exec_cons_eq_some.mp ran
  obtain rfl := Option.some.inj taken
  refine id_of_servedAs same.symm ((kept_of_run keeps quiet rest).trans ?_)
  exact (keeps ..).trans (World.currentRequestId_bind ..)

/-- A streaming behavior that binds no request id of its own. -/
structure StreamBehavior.Keeps (b : StreamBehavior Await Answer Message Error) : Prop where
  call : ∀ world, (b.call world).1.currentRequestId = world.currentRequestId
  coroutine : Grpc.Keeps b.coroutine
  generator : Grpc.Keeps b.generator

theorem StreamBehavior.Keeps.loop {b : StreamBehavior Await Answer Message Error} (keeps : b.Keeps)
    (s : b.State ⊕ b.State) (input : Input Answer Error) (world : World) :
    (b.loop s input world).1.currentRequestId = world.currentRequestId := by
  cases s with
  | inl s =>
      simp only [StreamBehavior.loop, relay, relay_go_fst]
      exact keeps.generator s input world
  | inr s =>
      cases input with
      | thrown e => rfl
      | _ =>
          simp only [StreamBehavior.loop, relay, relay_go_fst]
          exact keeps.generator s _ world

theorem StreamBehavior.Keeps.awaited {b : StreamBehavior Await Answer Message Error}
    (keeps : b.Keeps) (done : World × Rest b.State Await Empty Error (Option b.State)) :
    (b.awaited typeError done).1.currentRequestId = done.1.currentRequestId := by
  unfold StreamBehavior.awaited
  split
  · rfl
  · rfl
  · exact keeps.loop ..
  · rfl

theorem StreamBehavior.Keeps.stream {b : StreamBehavior Await Answer Message Error}
    (keeps : b.Keeps) : Grpc.Keeps (b.stream typeError) := by
  intro s input world
  unfold StreamBehavior.stream
  split
  · have called := keeps.call world
    split
    · rename_i after e same
      rwa [same] at called
    · rename_i after s same
      rw [same] at called
      exact (keeps.loop ..).trans called
    · rename_i after s same
      rw [same] at called
      exact (keeps.awaited ..).trans ((keeps.coroutine ..).trans called)
    · rename_i after same
      rwa [same] at called
  · exact (keeps.awaited ..).trans (keeps.coroutine ..)
  · exact keeps.loop ..

/-- So it is with a stream, whether its handler is kept to its end or abandoned. -/
theorem stream_bound {b : StreamBehavior Await Answer Message Error} (keeps : b.Keeps)
    {world : World} {first : World → World} {ls : List (Resumption World Answer Error)}
    (quiet : ∀ l ∈ ls, Quiet l)
    {d : Config World (servedStream typeError qualname details requestId b).State Await Message
      Error Unit}
    (run : exec (step (servedStream typeError qualname details requestId b).generator)
      ⟨world, .fresh (servedStart typeError qualname details requestId b), []⟩
        (⟨first, .next⟩ :: ls) = some d) :
    d.world.currentRequestId =
      if d.position.outcome.isSome then (first world).currentRequestId else some requestId := by
  have served := stream_served typeError qualname details requestId b world first ls
  rw [run, Option.map_some] at served
  obtain ⟨c, ran, same⟩ := Option.map_eq_some_iff.mp served.symm
  obtain ⟨next, taken, rest⟩ := exec_cons_eq_some.mp ran
  obtain rfl := Option.some.inj taken
  refine id_of_servedAs same.symm ((kept_of_run keeps.stream quiet rest).trans ?_)
  exact (keeps.stream ..).trans (World.currentRequestId_bind ..)

end Bound

/-! ## The server -/

section Server

variable {server : GrpcServer Await Answer Message Error Result} (typeError : Error)
  (qualname : Error → String) (details : HandlerCallDetails) (generated : String)
  {found : RpcMethodHandler Await Answer Message Error Result}

/-- A server with both interceptors, and no instrumentation of its own around them. -/
structure GrpcServer.Standard (server : GrpcServer Await Answer Message Error Result) : Prop where
  otel : server.useOtelInterceptor = true → server.otel = []
  requestIds : server.useRequestIdInterceptor = true
  metrics : server.useMetricsInterceptor = true

theorem behavior_standard (standard : server.Standard) :
    ∃ handler, server.lookup typeError qualname details generated (some found) = some handler ∧
      handler.behavior = (found.behavior.map fun behavior =>
        server.interceptors.foldr Wrapper.wrap behavior).map fun behavior =>
          (requestIdServerInterceptor typeError (details.requestId generated)).wrap
            ((metricsServerInterceptor typeError qualname details).wrap behavior) := by
  obtain ⟨handler, served, behaves⟩ := behavior_lookup found
    (server.chain typeError qualname details generated)
  refine ⟨handler, served, behaves.trans ?_⟩
  have outside : (if server.useOtelInterceptor then server.otel else []) = [] := by
    split
    · rename_i used
      exact standard.otel used
    · rfl
  rw [GrpcServer.chain, outside, standard.requestIds, standard.metrics, Option.map_map]
  rfl

/-- **A server shows of a stream what its handler shows.** -/
theorem stream_call (standard : server.Standard) {b : StreamBehavior Await Answer Message Error}
    (behaves : (found.behavior.map fun behavior =>
      server.interceptors.foldr Wrapper.wrap behavior) = some (.inr b)) :
    ∃ handler served start,
      server.lookup typeError qualname details generated (some found) = some handler ∧
      handler.behavior = some (.inr served) ∧
      (∀ world, served.call world = (world, .ok (.iterable start))) ∧
      ∀ world first ls,
        (exec (step served.generator) ⟨world, .fresh start, []⟩ (⟨first, .next⟩ :: ls)).map seen =
          (exec (step (b.stream typeError)) ⟨world, .fresh .calling, []⟩
            (⟨fun world => (first world).bind (some (details.requestId generated)), .next⟩ ::
              ls)).map fun c =>
              servedAs qualname details
                (EveryStep (step (b.stream typeError)) (fun c l => ¬ Abandons c l)
                  ⟨world, .fresh .calling, []⟩
                  (⟨fun world => (first world).bind (some (details.requestId generated)), .next⟩ ::
                    ls))
                (first world) (seen c) := by
  obtain ⟨handler, served, around⟩ := behavior_standard typeError qualname details
    generated standard
  rw [behaves] at around
  exact ⟨handler, _, _, served, around, fun _ => rfl,
    stream_served typeError qualname details (details.requestId generated) b⟩

/-- **A server answers a call with a single response as its handler does**, and records it once,
however the handler ends. -/
theorem unary_call (standard : server.Standard) {b : UnaryBehavior Await Answer Error Result}
    (behaves : (found.behavior.map fun behavior =>
      server.interceptors.foldr Wrapper.wrap behavior) = some (.inl b)) :
    ∃ handler served,
      server.lookup typeError qualname details generated (some found) = some handler ∧
      handler.behavior = some (.inl served) ∧
      ∀ world first ls,
        (exec (step served.code) ⟨world, .fresh served.start, []⟩ (⟨first, .next⟩ :: ls)).map
            seen =
          (exec (step b.code) ⟨world, .fresh b.start, []⟩
            (⟨fun world => (first world).bind (some (details.requestId generated)), .next⟩ ::
              ls)).map fun c => servedAs qualname details True (first world) (seen c) := by
  obtain ⟨handler, served, around⟩ := behavior_standard typeError qualname details
    generated standard
  rw [behaves] at around
  exact ⟨handler, _, served, around,
    unary_served typeError qualname details (details.requestId generated) b⟩

end Server

/-! ## A service that counts -/

/-- Handlers that count to two, and that wait for an answer and raise. -/
def counting : RpcMethodHandler Unit Unit ℕ String Unit where
  requestStreaming := false
  responseStreaming := true
  unaryStream := some (.ofGenerator 0 fun s _ world =>
    (world, if s < 2 then .yields s (s + 1) else .ends (.ok ())))

def failing : RpcMethodHandler Unit Unit ℕ String Unit where
  requestStreaming := false
  responseStreaming := false
  unaryUnary := some ⟨Bool, false, fun waited _ world =>
    (world, if waited then .ends (.error "ValueError") else .awaits () true)⟩

/-- What is recorded of what is seen. -/
def recorded {Shown : Type} : Shown × Option (Except String Unit) × World →
    Shown × List Measurement
  | (shown, _, world) => (shown, world.durations)

/-- The stream of a caller who goes away after its first message is not recorded. -/
theorem counting_called : ∃ handler served start,
    ({} : GrpcServer Unit Unit ℕ String Unit).lookup "TypeError" id
        ⟨"/probe.Probe/Count", some [("X-Request-ID", .str "r1")]⟩ "r0" (some counting) =
      some handler ∧
    handler.behavior = some (.inr served) ∧
    (∀ world, served.call world = (world, .ok (.iterable start))) ∧
    ((exec (step served.generator) ⟨{}, .fresh start, []⟩
        [⟨id, .next⟩, ⟨fun world => { world with perfCounter := 2 }, .next⟩, ⟨id, .next⟩]).map
          seen).map recorded =
      some ([.inr 0, .inr 1], [⟨"probe.Probe", "Count", "OK", none, 2000⟩]) ∧
    ((exec (step served.generator) ⟨{}, .fresh start, []⟩
        [⟨id, .next⟩, ⟨id, .thrown "GeneratorExit"⟩]).map seen).map recorded =
      some ([.inr 0], []) := by
  have standard : ({} : GrpcServer Unit Unit ℕ String Unit).Standard := ⟨fun _ => rfl, rfl, rfl⟩
  obtain ⟨handler, served, start, called, behaves, begins, runs⟩ := stream_call "TypeError" id
    ⟨"/probe.Probe/Count", some [("X-Request-ID", .str "r1")]⟩ "r0" standard
    (rfl : counting.behavior.map _ = _)
  refine ⟨handler, served, start, called, behaves, begins, ?_, ?_⟩
  · rw [runs]
    decide +kernel
  · rw [runs]
    decide +kernel

theorem failing_called : ∃ handler served,
    ({} : GrpcServer Unit Unit ℕ String Unit).lookup "TypeError" id ⟨"/probe.Probe/Fail", none⟩
        "r0" (some failing) = some handler ∧
    handler.behavior = some (.inl served) ∧
    ((exec (step served.code) ⟨{}, .fresh served.start, []⟩
        [⟨id, .next⟩, ⟨id, .answer ()⟩]).map seen).map recorded =
      some ([.inl ()], [⟨"probe.Probe", "Fail", "OK", some "ValueError", 0⟩]) := by
  have standard : ({} : GrpcServer Unit Unit ℕ String Unit).Standard := ⟨fun _ => rfl, rfl, rfl⟩
  obtain ⟨handler, served, called, behaves, runs⟩ := unary_call "TypeError" id
    ⟨"/probe.Probe/Fail", none⟩ "r0" standard (rfl : failing.behavior.map _ = _)
  refine ⟨handler, served, called, behaves, ?_⟩
  rw [runs]
  decide +kernel

end PyCommon.Grpc
