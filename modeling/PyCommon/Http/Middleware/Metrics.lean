import Mathlib.Algebra.Ring.Int.Defs
import Mathlib.Data.List.Induction
import Mathlib.Data.List.Nodup
import PyCommon.Asgi
import PyCommon.Lib.Runs

/-!
# Request metrics

`MetricsMiddleware` counts the requests that are under way in one instrument and records the
duration of each in another when it is over. Probes and the scrape endpoint are let through
unmeasured. The attributes are the method, if it is one of the known ones, the status of the start
that the application sent last, the template of the route, and the class of an exception.

Requests overlap, so the middleware is one system whose labels are what happens to the requests in
any order. The instrument for the requests under way tells, for each method, how many measured
requests are under way (`activeRequests_eq_inFlight`). A measured request that is over has been
recorded once, in the order in which requests ended, with what its own application did and nothing
of another one (`measured_once`).
-/

set_option autoImplicit false

namespace PyCommon.Metrics

open StepSystem

/-! ## The middleware -/

def knownMethods : List String :=
  ["GET", "HEAD", "POST", "PUT", "DELETE", "CONNECT", "OPTIONS", "TRACE", "PATCH"]

def defaultExcludedPaths : List String := ["/health", "/live", "/ready", "/metrics"]

/-- `_normalize_method`. -/
def normalizeMethod (method : String) : String :=
  if method ∈ knownMethods then method else "_OTHER"

structure MetricsMiddleware where
  excludedPaths : List String := defaultExcludedPaths

/-- `path.startswith(prefix)`. -/
def startsWith (path start : String) : Bool := start.toList.isPrefixOf path.toList

/-- `_excluded`. -/
def MetricsMiddleware.excluded (metrics : MetricsMiddleware) (path : String) : Bool :=
  metrics.excludedPaths.any fun p => path = p || startsWith path (p ++ "/")

/-- Whether the middleware does not simply let a connection through. -/
def MetricsMiddleware.measures (metrics : MetricsMiddleware) (scope : Scope) : Bool :=
  scope.type = .http && !metrics.excluded scope.path

/-- `_route_template`, of the path of the route that was matched. -/
def routeTemplate (path : Option String) : Option String := path.filter fun path => path ≠ ""

/-- A measured call that is under way. -/
structure Flight where
  method : String
  statusCode : ℤ
  began : ℕ
  deriving DecidableEq

/-- A call of `http_server_duration.record`, of the call with this number. -/
structure Measurement where
  request : ℕ
  method : String
  statusCode : ℤ
  route : Option String
  errorType : Option String
  duration : ℕ
  deriving DecidableEq

/-- The calls under way, and what the two instruments were given. A call of
`http_server_active_requests.add` is its amount and its method. -/
structure State where
  now : ℕ := 0
  arrived : List ℕ := []
  passing : List ℕ := []
  flights : List (ℕ × Flight) := []
  active : List (ℤ × String) := []
  durations : List Measurement := []
  deriving DecidableEq

/-- What happens to the requests: time passes, a call begins, its application sends a message, or
is over, with the exception it raised and the path of its route. -/
inductive Label where
  | elapse (ticks : ℕ)
  | begin_ (id : ℕ) (scope : Scope)
  | send (id : ℕ) (message : SendMessage)
  | finish (id : ℕ) (fault : Option PyExc) (routePath : Option String)

section Steps

variable (metrics : MetricsMiddleware) (qualname : PyExc → String)

/-- `send_wrapper` notes the status of a start. -/
def noteStatus (statusCode : ℤ) : SendMessage → ℤ
  | .start status _ => status
  | _ => statusCode

/-- The call with this number after a message of it. -/
def noted (id : ℕ) (message : SendMessage) (call : ℕ × Flight) : ℕ × Flight :=
  if call.1 = id then (id, { call.2 with statusCode := noteStatus call.2.statusCode message })
  else call

/-- `error_type`: only an `Exception` is caught. -/
def errorType (fault : Option PyExc) : Option String :=
  (fault.filter fun e => e.isException).map qualname

/-- What the `finally` records of a call. -/
def measurementOf (id : ℕ) (flight : Flight) (now : ℕ) (fault : Option PyExc)
    (routePath : Option String) : Measurement where
  request := id
  method := flight.method
  statusCode := flight.statusCode
  route := routeTemplate routePath
  errorType := errorType qualname fault
  duration := now - flight.began

/-- A call that is under way. -/
def State.flight (s : State) (id : ℕ) : Option Flight :=
  (s.flights.find? fun call => call.1 = id).map Prod.snd

def step (s : State) : Label → Option State
  | .elapse ticks => some { s with now := s.now + ticks }
  | .begin_ id scope =>
      if id ∈ s.arrived then none
      else if metrics.measures scope then
        let method := normalizeMethod scope.method
        some { s with
          arrived := id :: s.arrived
          flights := (id, ⟨method, 500, s.now⟩) :: s.flights
          active := s.active ++ [(1, method)] }
      else some { s with arrived := id :: s.arrived, passing := id :: s.passing }
  | .send id message =>
      match s.flight id with
      | some _ => some { s with flights := s.flights.map (noted id message) }
      | none => if id ∈ s.passing then some s else none
  | .finish id fault routePath =>
      match s.flight id with
      | some flight => some { s with
          flights := s.flights.eraseP fun call => call.1 = id
          active := s.active ++ [(-1, flight.method)]
          durations := s.durations ++ [measurementOf qualname id flight s.now fault routePath] }
      | none =>
          if id ∈ s.passing then some { s with passing := s.passing.filter (· ≠ id) } else none

end Steps

/-! ## What a step does -/

section Runs

variable {metrics : MetricsMiddleware} {qualname : PyExc → String} {s t : State} {l : Label}

theorem method_noted (id : ℕ) (message : SendMessage) (call : ℕ × Flight) :
    (noted id message call).2.method = call.2.method := by
  rw [noted]
  split <;> rfl

theorem fst_noted (id : ℕ) (message : SendMessage) (call : ℕ × Flight) :
    (noted id message call).1 = call.1 := by
  rw [noted]
  split
  · rename_i same
    exact same.symm
  · rfl

variable (metrics qualname) in
/-- What a label does. A call that is over is taken out of those under way. -/
inductive Does (s : State) : Label → State → Prop
  | elapsed {ticks : ℕ} : Does s (.elapse ticks) { s with now := s.now + ticks }
  | measured {id : ℕ} {scope : Scope} (fresh : id ∉ s.arrived)
      (measures : metrics.measures scope = true) :
      Does s (.begin_ id scope)
        { s with
          arrived := id :: s.arrived
          flights := (id, ⟨normalizeMethod scope.method, 500, s.now⟩) :: s.flights
          active := s.active ++ [(1, normalizeMethod scope.method)] }
  | passed {id : ℕ} {scope : Scope} (fresh : id ∉ s.arrived)
      (passes : metrics.measures scope = false) :
      Does s (.begin_ id scope) { s with arrived := id :: s.arrived, passing := id :: s.passing }
  | sent {id : ℕ} {message : SendMessage} :
      Does s (.send id message) { s with flights := s.flights.map (noted id message) }
  | finished {id : ℕ} {flight : Flight} {front back : List (ℕ × Flight)} {fault : Option PyExc}
      {routePath : Option String} (split : s.flights = front ++ (id, flight) :: back) :
      Does s (.finish id fault routePath)
        { s with
          flights := front ++ back
          active := s.active ++ [(-1, flight.method)]
          durations := s.durations ++ [measurementOf qualname id flight s.now fault routePath] }
  | left {id : ℕ} {fault : Option PyExc} {routePath : Option String} (passes : id ∈ s.passing) :
      Does s (.finish id fault routePath) { s with passing := s.passing.filter (· ≠ id) }

theorem split_of_flight {id : ℕ} {flight : Flight} (found : s.flight id = some flight) :
    ∃ front back, s.flights = front ++ (id, flight) :: back ∧
      s.flights.eraseP (fun call => call.1 = id) = front ++ back := by
  obtain ⟨⟨id', flight'⟩, found, same⟩ := Option.map_eq_some_iff.mp found
  obtain ⟨here, front, back, split, apart⟩ := List.find?_eq_some_iff_append.mp found
  obtain rfl : flight' = flight := same
  obtain rfl : id' = id := of_decide_eq_true here
  refine ⟨front, back, split, ?_⟩
  rw [split, List.eraseP_append_right _ fun call member => by simpa using apart call member]
  simp

theorem map_noted_of_flight_eq_none {id : ℕ} (message : SendMessage)
    (missing : s.flight id = none) : s.flights.map (noted id message) = s.flights := by
  have absent := List.find?_eq_none.mp (Option.map_eq_none_iff.mp missing)
  refine (List.map_congr_left fun call member => ?_).trans (List.map_id _)
  rw [noted, if_neg (by simpa using absent call member), id_eq]

theorem does_of_step (taken : step metrics qualname s l = some t) :
    Does metrics qualname s l t := by
  cases l with
  | elapse ticks =>
      obtain rfl := Option.some.inj taken
      exact .elapsed
  | begin_ id scope =>
      simp only [step] at taken
      split at taken
      · cases taken
      · rename_i fresh
        split at taken
        · rename_i measures
          obtain rfl := Option.some.inj taken
          exact .measured fresh measures
        · rename_i passes
          obtain rfl := Option.some.inj taken
          exact .passed fresh (Bool.eq_false_iff.mpr passes)
  | send id message =>
      simp only [step] at taken
      split at taken
      · obtain rfl := Option.some.inj taken
        exact .sent
      · rename_i missing
        split at taken
        · obtain rfl := Option.some.inj taken
          have sent : Does metrics qualname s (.send id message)
              { s with flights := s.flights.map (noted id message) } := .sent
          rwa [map_noted_of_flight_eq_none message missing] at sent
        · cases taken
  | finish id fault routePath =>
      simp only [step] at taken
      split at taken
      · rename_i flight found
        obtain rfl := Option.some.inj taken
        obtain ⟨front, back, split, erased⟩ := split_of_flight found
        rw [erased]
        exact .finished split
      · split at taken
        · rename_i passes
          obtain rfl := Option.some.inj taken
          exact .left passes
        · cases taken

/-! ## The requests under way -/

/-- What the instrument for the requests under way tells of a method. -/
def State.activeRequests (s : State) (method : String) : ℤ :=
  ((s.active.filter fun entry => entry.2 = method).map Prod.fst).sum

/-- How many measured requests with this method are under way. -/
def State.inFlight (s : State) (method : String) : ℕ :=
  s.flights.countP fun call => call.2.method = method

/-- The instrument tells how many requests are under way, for each method. -/
def State.Tells (s : State) : Prop := ∀ method, s.activeRequests method = s.inFlight method

theorem activeRequests_append {active : List (ℤ × String)} {entry : ℤ × String} {method : String}
    (grows : t.active = active ++ [entry]) (same : s.active = active) :
    t.activeRequests method =
      s.activeRequests method + if entry.2 = method then entry.1 else 0 := by
  rw [State.activeRequests, State.activeRequests, grows, same, List.filter_append, List.map_append,
    List.sum_append]
  by_cases here : entry.2 = method <;> simp [here]

theorem inFlight_cons {flights : List (ℕ × Flight)} {call : ℕ × Flight} {method : String}
    (grows : t.flights = call :: flights) (same : s.flights = flights) :
    t.inFlight method = s.inFlight method + if call.2.method = method then 1 else 0 := by
  rw [State.inFlight, State.inFlight, grows, same, List.countP_cons]
  simp

theorem tells_step (tells : s.Tells) (taken : step metrics qualname s l = some t) : t.Tells := by
  intro method
  cases does_of_step taken with
  | elapsed => exact tells method
  | measured =>
      rw [activeRequests_append rfl rfl, inFlight_cons rfl rfl, tells method]
      split <;> simp
  | passed => exact tells method
  | @sent id message =>
      refine (tells method).trans (congrArg Nat.cast ?_)
      rw [State.inFlight, State.inFlight, List.countP_map]
      refine List.countP_congr fun call _ => ?_
      rw [Function.comp_apply, method_noted]
  | @finished _ flight front back _ _ split =>
      have before := tells method
      rw [State.inFlight, split, List.countP_append, List.countP_cons] at before
      rw [activeRequests_append rfl rfl, before, State.inFlight, List.countP_append]
      by_cases here : flight.method = method
      · simp only [here, decide_true, if_true]
        omega
      · simp [here]
  | left => exact tells method

/-- **The instrument for the requests under way is right**, whatever the requests do and however
they overlap. -/
theorem activeRequests_eq_inFlight {labels : List Label}
    (run : exec (step metrics qualname) {} labels = some s) (method : String) :
    s.activeRequests method = s.inFlight method :=
  exec_invariant_always (fun _ _ _ tells taken => tells_step tells taken) run (fun _ => rfl) method

end Runs

/-! ## What is recorded -/

/-- The time after these labels. -/
def clock (labels : List Label) : ℕ :=
  labels.foldl (fun now label => match label with
    | .elapse ticks => now + ticks
    | _ => now) 0

/-- The status that a request has after these labels: of its last start, or 500 without one. -/
def statusOf (id : ℕ) (labels : List Label) : ℤ :=
  labels.foldl (fun status label => match label with
    | .send sender message => if sender = id then noteStatus status message else status
    | _ => status) 500

/-- The request that begins with a label, if it is measured. -/
def Label.measuredId (metrics : MetricsMiddleware) : Label → Option ℕ
  | .begin_ id scope => if metrics.measures scope then some id else none
  | _ => none

/-- The request that is over with a label. -/
def Label.finishedId : Label → Option ℕ
  | .finish id _ _ => some id
  | _ => none

section Accounts

variable (metrics : MetricsMiddleware) (qualname : PyExc → String)

/-- The measured requests among those that began. -/
def measuredIds (labels : List Label) : List ℕ := labels.filterMap (Label.measuredId metrics)

/-- The requests that are over, in order. -/
def finishedIds (labels : List Label) : List ℕ := labels.filterMap Label.finishedId

/-- A measured request that began among these labels and what it has done since. -/
def UnderWay (labels : List Label) (id : ℕ) (flight : Flight) : Prop :=
  ∃ before scope since, labels = before ++ .begin_ id scope :: since ∧
    metrics.measures scope = true ∧
    flight = ⟨normalizeMethod scope.method, statusOf id since, clock before⟩

/-- A measured request that began and ended among these labels, and its measurement. -/
def Recorded (labels : List Label) (measurement : Measurement) : Prop :=
  ∃ before scope since fault routePath after,
    labels = before ++ .begin_ measurement.request scope :: since ++
      .finish measurement.request fault routePath :: after ∧
    metrics.measures scope = true ∧
    measurement = ⟨measurement.request, normalizeMethod scope.method,
      statusOf measurement.request since, routeTemplate routePath, errorType qualname fault,
      clock (before ++ .begin_ measurement.request scope :: since) - clock before⟩

/-- What is true of a state after these labels. -/
structure Accounts (labels : List Label) (s : State) : Prop where
  now : s.now = clock labels
  nodup : (s.durations.map Measurement.request ++ s.flights.map Prod.fst ++ s.passing).Nodup
  arrived : ∀ id ∈ s.durations.map Measurement.request ++ s.flights.map Prod.fst ++ s.passing,
    id ∈ s.arrived
  begun : ∀ id ∈ measuredIds metrics labels, id ∈ s.arrived
  ended : ∀ id ∈ finishedIds labels, id ∈ s.arrived
  unmeasured : ∀ id ∈ s.passing, id ∉ measuredIds metrics labels
  flights : ∀ call ∈ s.flights, UnderWay metrics labels call.1 call.2
  durations : ∀ measurement ∈ s.durations, Recorded metrics qualname labels measurement
  order : s.durations.map Measurement.request =
    (finishedIds labels).filter (· ∈ measuredIds metrics labels)

end Accounts

section Accounting

variable {metrics : MetricsMiddleware} {qualname : PyExc → String} {s t : State} {l : Label}
  {labels : List Label}

theorem clock_concat : clock (labels ++ [l]) = match l with
    | .elapse ticks => clock labels + ticks
    | _ => clock labels := by
  rw [clock, List.foldl_concat]
  rfl

theorem statusOf_concat {id : ℕ} : statusOf id (labels ++ [l]) = match l with
    | .send sender message =>
        if sender = id then noteStatus (statusOf id labels) message else statusOf id labels
    | _ => statusOf id labels := by
  rw [statusOf, List.foldl_concat]
  rfl

theorem measuredIds_concat : measuredIds metrics (labels ++ [l]) =
    measuredIds metrics labels ++ (l.measuredId metrics).toList := by
  rw [measuredIds, List.filterMap_append, List.filterMap_cons, List.filterMap_nil]
  cases l.measuredId metrics <;> rfl

theorem finishedIds_concat : finishedIds (labels ++ [l]) =
    finishedIds labels ++ l.finishedId.toList := by
  rw [finishedIds, List.filterMap_append, List.filterMap_cons, List.filterMap_nil]
  cases l.finishedId <;> rfl

theorem Recorded.concat {measurement : Measurement}
    (recorded : Recorded metrics qualname labels measurement) :
    Recorded metrics qualname (labels ++ [l]) measurement := by
  obtain ⟨before, scope, since, fault, routePath, after, split, rest⟩ := recorded
  exact ⟨before, scope, since, fault, routePath, after ++ [l], by simp [split], rest⟩

/-- A request that is under way stays so with a label that is not its own message. -/
theorem UnderWay.concat {id : ℕ} {flight : Flight} (underWay : UnderWay metrics labels id flight)
    (silent : ∀ sender message, l = .send sender message → sender ≠ id) :
    UnderWay metrics (labels ++ [l]) id flight := by
  obtain ⟨before, scope, since, split, measures, rfl⟩ := underWay
  refine ⟨before, scope, since ++ [l], by simp [split], measures, ?_⟩
  have same : statusOf id (since ++ [l]) = statusOf id since := by
    rw [statusOf_concat]
    cases l with
    | send sender message => exact if_neg (silent sender message rfl)
    | _ => rfl
  rw [same]

theorem UnderWay.noted {call : ℕ × Flight} {id : ℕ} {message : SendMessage}
    (underWay : UnderWay metrics labels call.1 call.2) :
    UnderWay metrics (labels ++ [.send id message]) (noted id message call).1
      (noted id message call).2 := by
  by_cases own : call.1 = id
  · obtain ⟨before, scope, since, split, measures, same⟩ := underWay
    rw [Metrics.noted, if_pos own]
    rw [own] at split same
    refine ⟨before, scope, since ++ [.send id message], by simp [split], measures, ?_⟩
    have status : statusOf id (since ++ [.send id message]) =
        noteStatus (statusOf id since) message := by
      rw [statusOf_concat]
      exact if_pos rfl
    rw [same, status]
  · rw [Metrics.noted, if_neg own]
    refine underWay.concat fun sender message' same => ?_
    obtain ⟨rfl, _⟩ := Label.send.inj same
    exact fun clash => own clash.symm

theorem UnderWay.mem_measuredIds {id : ℕ} {flight : Flight}
    (underWay : UnderWay metrics labels id flight) : id ∈ measuredIds metrics labels := by
  obtain ⟨before, scope, since, rfl, measures, _⟩ := underWay
  refine List.mem_filterMap.mpr ⟨.begin_ id scope, by simp, ?_⟩
  rw [Label.measuredId, if_pos measures]

/-- What a request under way is recorded with when it is over. -/
theorem UnderWay.recorded {id : ℕ} {flight : Flight} (underWay : UnderWay metrics labels id flight)
    (now : s.now = clock labels) (fault : Option PyExc) (routePath : Option String) :
    Recorded metrics qualname (labels ++ [.finish id fault routePath])
      (measurementOf qualname id flight s.now fault routePath) := by
  obtain ⟨before, scope, since, split, measures, rfl⟩ := underWay
  refine ⟨before, scope, since, fault, routePath, [], by rw [split]; rfl, measures, ?_⟩
  rw [measurementOf, now, split]

/-- A label with which no request begins or ends leaves the order as it is. -/
theorem order_concat {ids : List ℕ} (unfinished : l.finishedId = none)
    (fresh : ∀ id ∈ l.measuredId metrics, id ∉ finishedIds labels)
    (order : ids = (finishedIds labels).filter (· ∈ measuredIds metrics labels)) :
    ids = (finishedIds (labels ++ [l])).filter (· ∈ measuredIds metrics (labels ++ [l])) := by
  rw [finishedIds_concat, unfinished, Option.toList_none, List.append_nil, order]
  refine List.filter_congr fun id ended => ?_
  have other : id ∉ (l.measuredId metrics).toList := fun begins =>
    fresh id (Option.mem_toList.mp begins) ended
  simp only [measuredIds_concat, List.mem_append, other, or_false]

/-- The requests that a state knows of. -/
def State.known (s : State) : List ℕ :=
  s.durations.map Measurement.request ++ s.flights.map Prod.fst ++ s.passing

theorem accounts_measured {id : ℕ} {scope : Scope} (accounts : Accounts metrics qualname labels s)
    (fresh : id ∉ s.arrived) (measures : metrics.measures scope = true) :
    Accounts metrics qualname (labels ++ [.begin_ id scope])
      { s with
        arrived := id :: s.arrived
        flights := (id, ⟨normalizeMethod scope.method, 500, s.now⟩) :: s.flights
        active := s.active ++ [(1, normalizeMethod scope.method)] } := by
  have begins : (Label.begin_ id scope).measuredId metrics = some id := if_pos measures
  have grown : (s.durations.map Measurement.request ++ id :: s.flights.map Prod.fst ++
      s.passing).Perm (id :: s.known) :=
    List.Perm.append_right s.passing List.perm_middle
  refine ⟨?_, ?_, ?_, ?_, ?_, ?_, ?_, ?_, ?_⟩
  · rw [clock_concat]
    exact accounts.now
  · exact grown.nodup_iff.mpr
      (List.nodup_cons.mpr ⟨fun known => fresh (accounts.arrived id known), accounts.nodup⟩)
  · intro other known
    rcases List.mem_cons.mp (grown.mem_iff.mp known) with rfl | earlier
    · exact List.mem_cons_self
    · exact List.mem_cons_of_mem _ (accounts.arrived other earlier)
  · intro other measured
    rw [measuredIds_concat, begins] at measured
    rcases List.mem_append.mp measured with earlier | now
    · exact List.mem_cons_of_mem _ (accounts.begun other earlier)
    · exact List.mem_cons.mpr (.inl (List.mem_singleton.mp now))
  · intro other ended
    rw [finishedIds_concat] at ended
    exact List.mem_cons_of_mem _ (accounts.ended other (by simpa [Label.finishedId] using ended))
  · intro other passes measured
    rw [measuredIds_concat, begins] at measured
    rcases List.mem_append.mp measured with earlier | now
    · exact accounts.unmeasured other passes earlier
    · obtain rfl := List.mem_singleton.mp now
      exact fresh (accounts.arrived other (List.mem_append_right _ passes))
  · intro call member
    rcases List.mem_cons.mp member with rfl | earlier
    · exact ⟨labels, scope, [], rfl, measures, by rw [accounts.now]; rfl⟩
    · exact (accounts.flights call earlier).concat fun _ _ same => by cases same
  · intro measurement member
    exact (accounts.durations measurement member).concat
  · refine order_concat rfl (fun other starts ended => ?_) accounts.order
    obtain rfl := Option.some.inj (begins.symm.trans starts)
    exact fresh (accounts.ended _ ended)

theorem accounts_passed {id : ℕ} {scope : Scope} (accounts : Accounts metrics qualname labels s)
    (fresh : id ∉ s.arrived) (passes : metrics.measures scope = false) :
    Accounts metrics qualname (labels ++ [.begin_ id scope])
      { s with arrived := id :: s.arrived, passing := id :: s.passing } := by
  have begins : (Label.begin_ id scope).measuredId metrics = none :=
    if_neg (Bool.eq_false_iff.mp passes)
  have grown : (s.durations.map Measurement.request ++ s.flights.map Prod.fst ++
      id :: s.passing).Perm (id :: s.known) := List.perm_middle
  have measured : measuredIds metrics (labels ++ [.begin_ id scope]) =
      measuredIds metrics labels := by
    rw [measuredIds_concat, begins, Option.toList_none, List.append_nil]
  refine ⟨?_, ?_, ?_, ?_, ?_, ?_, ?_, ?_, ?_⟩
  · rw [clock_concat]
    exact accounts.now
  · exact grown.nodup_iff.mpr
      (List.nodup_cons.mpr ⟨fun known => fresh (accounts.arrived id known), accounts.nodup⟩)
  · intro other known
    rcases List.mem_cons.mp (grown.mem_iff.mp known) with rfl | earlier
    · exact List.mem_cons_self
    · exact List.mem_cons_of_mem _ (accounts.arrived other earlier)
  · intro other member
    rw [measured] at member
    exact List.mem_cons_of_mem _ (accounts.begun other member)
  · intro other ended
    rw [finishedIds_concat] at ended
    exact List.mem_cons_of_mem _ (accounts.ended other (by simpa [Label.finishedId] using ended))
  · intro other member
    rw [measured]
    rcases List.mem_cons.mp member with rfl | earlier
    · exact fun begun => fresh (accounts.begun _ begun)
    · exact accounts.unmeasured other earlier
  · intro call member
    exact (accounts.flights call member).concat fun _ _ same => by cases same
  · intro measurement member
    exact (accounts.durations measurement member).concat
  · refine order_concat rfl (fun other starts => ?_) accounts.order
    rw [begins] at starts
    cases starts

/-- A label with which no request begins or ends, and what it makes of the calls under way. -/
theorem accounts_quiet {now : ℕ} {flights : List (ℕ × Flight)}
    (accounts : Accounts metrics qualname labels s) (unbegun : l.measuredId metrics = none)
    (unfinished : l.finishedId = none) (clocked : now = clock (labels ++ [l]))
    (same : flights.map Prod.fst = s.flights.map Prod.fst)
    (underWay : ∀ call ∈ flights, UnderWay metrics (labels ++ [l]) call.1 call.2) :
    Accounts metrics qualname (labels ++ [l]) { s with now, flights } := by
  have measured : measuredIds metrics (labels ++ [l]) = measuredIds metrics labels := by
    rw [measuredIds_concat, unbegun, Option.toList_none, List.append_nil]
  have finished : finishedIds (labels ++ [l]) = finishedIds labels := by
    rw [finishedIds_concat, unfinished, Option.toList_none, List.append_nil]
  refine ⟨clocked, ?_, ?_, ?_, ?_, ?_, underWay, ?_, ?_⟩
  · rw [same]
    exact accounts.nodup
  · rw [same]
    exact accounts.arrived
  · rw [measured]
    exact accounts.begun
  · rw [finished]
    exact accounts.ended
  · rw [measured]
    exact accounts.unmeasured
  · intro measurement member
    exact (accounts.durations measurement member).concat
  · rw [measured, finished]
    exact accounts.order

theorem accounts_finished {id : ℕ} {flight : Flight} {front back : List (ℕ × Flight)}
    {fault : Option PyExc} {routePath : Option String}
    (accounts : Accounts metrics qualname labels s)
    (split : s.flights = front ++ (id, flight) :: back) :
    Accounts metrics qualname (labels ++ [.finish id fault routePath])
      { s with
        flights := front ++ back
        active := s.active ++ [(-1, flight.method)]
        durations := s.durations ++ [measurementOf qualname id flight s.now fault routePath] } := by
  have member : (id, flight) ∈ s.flights := by simp [split]
  have underWay := accounts.flights _ member
  have measured : measuredIds metrics (labels ++ [.finish id fault routePath]) =
      measuredIds metrics labels := by
    rw [measuredIds_concat]
    exact List.append_nil _
  have moved : ((s.durations ++ [measurementOf qualname id flight s.now fault routePath]).map
      Measurement.request ++ (front ++ back).map Prod.fst ++ s.passing).Perm s.known := by
    rw [State.known, split, List.map_append, List.map_append, List.map_append, List.append_assoc
      (s.durations.map Measurement.request)]
    have middle : (id :: (front.map Prod.fst ++ back.map Prod.fst)).Perm
        (front.map Prod.fst ++ id :: back.map Prod.fst) := List.perm_middle.symm
    exact List.Perm.append_right _ (List.Perm.append_left _ middle)
  refine ⟨?_, ?_, ?_, ?_, ?_, ?_, ?_, ?_, ?_⟩
  · rw [clock_concat]
    exact accounts.now
  · exact moved.nodup_iff.mpr accounts.nodup
  · intro other known
    exact accounts.arrived other (moved.mem_iff.mp known)
  · rw [measured]
    exact accounts.begun
  · intro other ended
    rw [finishedIds_concat] at ended
    rcases List.mem_append.mp ended with earlier | last
    · exact accounts.ended other earlier
    · obtain rfl := List.mem_singleton.mp last
      exact accounts.begun _ underWay.mem_measuredIds
  · rw [measured]
    exact accounts.unmeasured
  · intro call stays
    have before : call ∈ s.flights := by
      rw [split]
      rcases List.mem_append.mp stays with early | late
      · exact List.mem_append_left _ early
      · exact List.mem_append_right _ (List.mem_cons_of_mem _ late)
    exact (accounts.flights call before).concat fun _ _ same => by cases same
  · intro measurement recorded
    rcases List.mem_append.mp recorded with earlier | last
    · exact (accounts.durations measurement earlier).concat
    · obtain rfl := List.mem_singleton.mp last
      exact underWay.recorded accounts.now fault routePath
  · rw [measured, finishedIds_concat, List.filter_append, List.map_append, accounts.order]
    have kept := underWay.mem_measuredIds
    simp [Label.finishedId, kept, measurementOf]

theorem accounts_left {id : ℕ} {fault : Option PyExc} {routePath : Option String}
    (accounts : Accounts metrics qualname labels s) (passes : id ∈ s.passing) :
    Accounts metrics qualname (labels ++ [.finish id fault routePath])
      { s with passing := s.passing.filter (· ≠ id) } := by
  have measured : measuredIds metrics (labels ++ [.finish id fault routePath]) =
      measuredIds metrics labels := by
    rw [measuredIds_concat]
    exact List.append_nil _
  have fewer : (s.durations.map Measurement.request ++ s.flights.map Prod.fst ++
      s.passing.filter (· ≠ id)).Sublist s.known :=
    (List.Sublist.refl _).append List.filter_sublist
  refine ⟨?_, accounts.nodup.sublist fewer, ?_, ?_, ?_, ?_, ?_, ?_, ?_⟩
  · rw [clock_concat]
    exact accounts.now
  · intro other known
    exact accounts.arrived other (fewer.subset known)
  · rw [measured]
    exact accounts.begun
  · intro other ended
    rw [finishedIds_concat] at ended
    rcases List.mem_append.mp ended with earlier | last
    · exact accounts.ended other earlier
    · obtain rfl := List.mem_singleton.mp last
      exact accounts.arrived _ (List.mem_append_right _ passes)
  · rw [measured]
    intro other member
    exact accounts.unmeasured other (List.mem_of_mem_filter member)
  · intro call member
    exact (accounts.flights call member).concat fun _ _ same => by cases same
  · intro measurement member
    exact (accounts.durations measurement member).concat
  · rw [measured, finishedIds_concat, List.filter_append, accounts.order]
    have dropped := accounts.unmeasured id passes
    simp [Label.finishedId, dropped]

theorem accounts_step (accounts : Accounts metrics qualname labels s)
    (taken : step metrics qualname s l = some t) :
    Accounts metrics qualname (labels ++ [l]) t := by
  cases does_of_step taken with
  | elapsed =>
      refine accounts_quiet accounts rfl rfl ?_ rfl fun call member => ?_
      · rw [clock_concat, accounts.now]
      · exact (accounts.flights call member).concat fun _ _ same => by cases same
  | measured fresh measures => exact accounts_measured accounts fresh measures
  | passed fresh passes => exact accounts_passed accounts fresh passes
  | @sent id message =>
      refine accounts_quiet accounts rfl rfl ?_ ?_ fun call member => ?_
      · rw [clock_concat]
        exact accounts.now
      · rw [List.map_map]
        exact List.map_congr_left fun call _ => fst_noted id message call
      · obtain ⟨earlier, before, rfl⟩ := List.mem_map.mp member
        exact (accounts.flights earlier before).noted
  | finished split => exact accounts_finished accounts split
  | left passes => exact accounts_left accounts passes

theorem accounts_of_run (run : exec (step metrics qualname) {} labels = some s) :
    Accounts metrics qualname labels s := by
  induction labels using List.reverseRecOn generalizing s with
  | nil =>
      obtain rfl := Option.some.inj run
      exact ⟨rfl, List.nodup_nil, fun _ known => absurd known List.not_mem_nil,
        fun _ measured => absurd measured List.not_mem_nil,
        fun _ ended => absurd ended List.not_mem_nil,
        fun _ passes => absurd passes List.not_mem_nil,
        fun _ member => absurd member List.not_mem_nil,
        fun _ member => absurd member List.not_mem_nil, rfl⟩
  | append_singleton labels l ih =>
      obtain ⟨middle, front, taken⟩ := exec_concat_eq_some run
      exact accounts_step (ih front) taken

/-- **Every measured request that is over is recorded once**, in the order in which requests end:
with its own method, the status of its own last start, its own route and exception, and the time
from its begin to its end. Nothing else is recorded. -/
theorem measured_once (run : exec (step metrics qualname) {} labels = some s) :
    s.durations.map Measurement.request =
        (finishedIds labels).filter (· ∈ measuredIds metrics labels) ∧
      (s.durations.map Measurement.request).Nodup ∧
      ∀ measurement ∈ s.durations, Recorded metrics qualname labels measurement := by
  have accounts := accounts_of_run run
  refine ⟨accounts.order, ?_, accounts.durations⟩
  exact (List.nodup_append.mp (List.nodup_append.mp accounts.nodup).1).1

end Accounting

/-! ## Two requests that overlap -/

/-- A request for an order, during which a probe and another request come and go. -/
def overlapping : List Label :=
  [.begin_ 0 { method := "GET", path := "/orders/7" }, .elapse 3,
    .begin_ 1 { method := "GET", path := "/health/ready" }, .send 1 (.start 200 []),
    .begin_ 2 { method := "BREW", path := "/orders/8" }, .send 2 (.start 404 []), .elapse 1,
    .finish 1 none (some "/health/ready"), .finish 2 none none, .send 0 (.start 200 []),
    .finish 0 (some (.error 5)) (some "/orders/{id}")]

/-- What the service sees after the first labels of them. -/
def overlapped (count : ℕ) : State :=
  (exec (step {} fun _ => "ValueError") {} (overlapping.take count)).getD {}

/-- While the probe and the other request are over, one request is under way. -/
theorem overlapped_active :
    (overlapped 9).activeRequests "GET" = 1 ∧ (overlapped 9).activeRequests "_OTHER" = 0 := by
  have run : exec (step {} fun _ => "ValueError") {} (overlapping.take 9) =
      some (overlapped 9) := rfl
  rw [activeRequests_eq_inFlight run, activeRequests_eq_inFlight run]
  decide

theorem overlapped_measured :
    (overlapped 11).durations.map Measurement.request = [2, 0] ∧
      ∀ measurement ∈ (overlapped 11).durations,
        Recorded {} (fun _ => "ValueError") overlapping measurement := by
  have run : exec (step {} fun _ => "ValueError") {} overlapping = some (overlapped 11) := rfl
  obtain ⟨order, _, recorded⟩ := measured_once run
  exact ⟨order.trans (by decide), recorded⟩

end PyCommon.Metrics
