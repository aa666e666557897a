import PyCommon.Asgi
import PyCommon.Lib.Handles

/-!
# The telemetry providers

`setup_metrics` builds a meter provider, unless one is there, keeps it in a global and hands it to
the API of OpenTelemetry; `setup_telemetry` does so and then the same for a tracer provider. The
API is set once: it keeps the first provider it is given. `shutdown_telemetry` shuts both providers
down and empties the globals, whatever the shutdowns raise.

No provider is lost (`meters_noneLost`, `tracers_noneLost`). But a provider that is built after
another was shut down is not the one the API has, and a tracer provider whose exporter could not be
built stays in the global and is never handed over. What is held is what the API has, for both
signals and in every state, exactly when each provider is the first of its kind and no exporter
fails (`providers_reached_iff`).

The scrape endpoint serves the registry that `setup_metrics` made, and says that nothing is
initialized while there is none. A setup that fails after it made the registry leaves it there: the
endpoint never serves a registry that no provider collects into exactly when no setup strands one
(`scrapes_held_iff`).
-/

set_option autoImplicit false

namespace PyCommon.Providers

open Handles StepSystem

/-! ## The globals -/

/-- What an import or a call of a package raises. -/
inductive Fault where
  | importError
  | other (e : PyExc)
  deriving DecidableEq

/-- The globals of `py_common.telemetry`, each provider beside what the API was given. The registry
of the scrape endpoint is here with the provider that collects into it, if any does. -/
structure Telemetry where
  meter : Registered := .empty
  registry : Option (Option ℕ) := none
  tracer : Registered := .empty
  deriving DecidableEq

/-- The arguments of `setup_metrics` that decide what it builds. -/
structure MetricsSettings where
  enabled : Bool := true
  otlp : Bool := true
  prometheus : Bool := false
  deriving DecidableEq

/-- What `setup_metrics` meets: the imports of the SDK, the OTLP reader, the imports before the
registry is made, the reader of the registry, and the provider. -/
structure MetricsFaults where
  sdk : Option Fault := none
  otlp : Option Fault := none
  exporter : Option Fault := none
  reader : Option Fault := none
  provider : Option Fault := none
  deriving DecidableEq

/-- The arguments of `setup_telemetry` that decide what it builds. -/
structure TelemetrySettings where
  enabled : Bool := true
  metricsEnabled : Bool := true
  prometheusMetrics : Bool := false
  deriving DecidableEq

/-- What `setup_telemetry` meets: the setup of the metrics, the imports of the SDK, the provider,
its exporter with the processor, and what gets out of `_instrument_libraries`. -/
structure TelemetryFaults where
  metrics : MetricsFaults := {}
  sdk : Option Fault := none
  provider : Option Fault := none
  exporter : Option Fault := none
  instrument : Option Fault := none
  deriving DecidableEq

/-- The call of `setup_metrics` in `setup_telemetry`. -/
def TelemetrySettings.metrics (s : TelemetrySettings) : MetricsSettings where
  enabled := s.metricsEnabled
  prometheus := s.prometheusMetrics

namespace Telemetry

/-- The Prometheus part of `setup_metrics`, and whether it has a reader to show for it. A package
that is missing is only warned about. -/
def prometheusReader (t : Telemetry) (f : MetricsFaults) : Telemetry × Except Fault Bool :=
  match f.exporter with
  | some .importError => (t, .ok false)
  | some e => (t, .error e)
  | none =>
      let t := { t with registry := some none }
      match f.reader with
      | some .importError => (t, .ok false)
      | some e => (t, .error e)
      | none => (t, .ok true)

/-- The end of `setup_metrics`: the provider over the readers that were built. -/
def meterProvider (t : Telemetry) (reads : Bool) (f : MetricsFaults) :
    Telemetry × Except Fault (Option ℕ) :=
  match f.provider with
  | some e => (t, .error e)
  | none =>
      ({ t with
          meter := t.meter.make true
          registry := if reads then some (some t.meter.slot.made) else t.registry },
        .ok (some t.meter.slot.made))

/-- `setup_metrics`. -/
def setupMetrics (t : Telemetry) (s : MetricsSettings) (f : MetricsFaults) :
    Telemetry × Except Fault (Option ℕ) :=
  if !s.enabled then (t, .ok none)
  else
    match t.meter.slot.held with
    | some id => (t, .ok (some id))
    | none =>
        match f.sdk.or (if s.otlp then f.otlp else none) with
        | some e => (t, .error e)
        | none =>
            match if s.prometheus then t.prometheusReader f else (t, .ok false) with
            | (t, .error e) => (t, .error e)
            | (t, .ok reads) => t.meterProvider reads f

/-- `shutdown_metrics`. The globals are emptied in a `finally`. -/
def shutdownMetrics (t : Telemetry) (raised : Option PyExc) : Telemetry × Except PyExc Unit :=
  match t.meter.slot.held with
  | none => (t, .ok ())
  | some _ =>
      ({ t with meter := t.meter.release, registry := none },
        match raised with
        | some e => if e.isException then .ok () else .error e
        | none => .ok ())

/-- The tracer provider of `setup_telemetry`. The global has it before its exporter is built, and
the API only afterwards. -/
def tracerProvider (t : Telemetry) (f : TelemetryFaults) : Telemetry × Except Fault Unit :=
  match t.tracer.slot.held with
  | some _ => (t, .ok ())
  | none =>
      match f.provider with
      | some e => (t, .error e)
      | none =>
          match f.exporter with
          | some e => ({ t with tracer := t.tracer.make false }, .error e)
          | none => ({ t with tracer := t.tracer.make true }, .ok ())

/-- `setup_telemetry`. -/
def setupTelemetry (t : Telemetry) (s : TelemetrySettings) (f : TelemetryFaults) :
    Telemetry × Except Fault (Option ℕ) :=
  if !s.enabled then (t, .ok none)
  else
    match t.setupMetrics s.metrics f.metrics with
    | (t, .error e) => (t, .error e)
    | (t, .ok _) =>
        match f.sdk with
        | some e => (t, .error e)
        | none =>
            match t.tracerProvider f with
            | (t, .error e) => (t, .error e)
            | (t, .ok ()) =>
                match f.instrument with
                | some e => (t, .error e)
                | none => (t, .ok t.tracer.slot.held)

/-- `shutdown_telemetry`. What is no `Exception` gets out of the shutdown of the metrics, and the
tracer provider is then left alone. -/
def shutdownTelemetry (t : Telemetry) (meterRaised tracerRaised : Option PyExc) :
    Telemetry × Except PyExc Unit :=
  match t.shutdownMetrics meterRaised with
  | (t, .error e) => (t, .error e)
  | (t, .ok ()) =>
      match t.tracer.slot.held with
      | none => (t, .ok ())
      | some _ =>
          ({ t with tracer := t.tracer.release },
            match tracerRaised with
            | some e => if e.isException then .ok () else .error e
            | none => .ok ())

end Telemetry

/-- What the scrape endpoint answers: that nothing is initialized, with a 503, or what the registry
collected. -/
inductive Scrape where
  | unavailable
  | latest (collector : Option ℕ)
  deriving DecidableEq

/-- `scrape`, the endpoint of `build_metrics_router`. -/
def Telemetry.scrape (t : Telemetry) : Scrape :=
  match t.registry with
  | none => .unavailable
  | some collector => .latest collector

/-- A call of the module, with what the packages raise. -/
inductive Op where
  | setupMetrics (s : MetricsSettings) (f : MetricsFaults)
  | shutdownMetrics (raised : Option PyExc)
  | setupTelemetry (s : TelemetrySettings) (f : TelemetryFaults)
  | shutdownTelemetry (meterRaised tracerRaised : Option PyExc)
  deriving DecidableEq

def step (t : Telemetry) : Op → Option Telemetry
  | .setupMetrics s f => some (t.setupMetrics s f).1
  | .shutdownMetrics raised => some (t.shutdownMetrics raised).1
  | .setupTelemetry s f => some (t.setupTelemetry s f).1
  | .shutdownTelemetry meterRaised tracerRaised =>
      some (t.shutdownTelemetry meterRaised tracerRaised).1

/-- A process before its first setup. -/
def start : Telemetry := {}

/-! ## What a setup of the metrics does -/

/-- A setup that does more than look at the globals. -/
def Telemetry.Starts (t : Telemetry) (s : MetricsSettings) : Prop :=
  s.enabled = true ∧ t.meter.slot.held = none
  deriving Decidable

/-- What such a setup meets before it comes to Prometheus. -/
def MetricsFaults.early (f : MetricsFaults) (s : MetricsSettings) : Option Fault :=
  f.sdk.or (if s.otlp then f.otlp else none)

/-- What gets out of the Prometheus part. -/
def MetricsFaults.late (f : MetricsFaults) (s : MetricsSettings) : Option Fault :=
  if s.prometheus then (f.exporter.or f.reader).filter (· ≠ .importError) else none

/-- What such a setup raises. -/
def MetricsFaults.first (f : MetricsFaults) (s : MetricsSettings) : Option Fault :=
  (f.early s).or ((f.late s).or f.provider)

/-- Such a setup makes a registry. -/
def MetricsFaults.MakesRegistry (f : MetricsFaults) (s : MetricsSettings) : Prop :=
  f.early s = none ∧ s.prometheus = true ∧ f.exporter = none
  deriving Decidable

/-- Such a setup makes a registry, and no provider that collects into it. -/
def MetricsFaults.Strands (f : MetricsFaults) (s : MetricsSettings) : Prop :=
  f.MakesRegistry s ∧ (f.reader ≠ none ∨ f.provider ≠ none)
  deriving Decidable

/-- What a setup of the metrics does: nothing, fail, or build a provider. -/
inductive Sets (t : Telemetry) (s : MetricsSettings) (f : MetricsFaults) :
    Telemetry × Except Fault (Option ℕ) → Prop
  | skipped {given : Option ℕ} (idle : ¬ t.Starts s) : Sets t s f (t, .ok given)
  | failed {e : Fault} (starts : t.Starts s) (first : f.first s = some e) :
      Sets t s f ({ t with registry := if f.Strands s then some none else t.registry }, .error e)
  | built (starts : t.Starts s) (first : f.first s = none) :
      Sets t s f
        ({ t with
            meter := t.meter.make true
            registry :=
              if f.Strands s then some none
              else if f.MakesRegistry s then some (some t.meter.slot.made) else t.registry },
          .ok (some t.meter.slot.made))

theorem setupMetrics_of_starts {t : Telemetry} {s : MetricsSettings} (starts : t.Starts s)
    (f : MetricsFaults) :
    t.setupMetrics s f =
      match f.early s with
      | some e => (t, .error e)
      | none =>
          match if s.prometheus then t.prometheusReader f else (t, .ok false) with
          | (t, .error e) => (t, .error e)
          | (t, .ok reads) => t.meterProvider reads f := by
  simp only [Telemetry.setupMetrics, starts.1, starts.2, Bool.not_true, Bool.false_eq_true,
    if_false]
  rfl

theorem setupMetrics_of_not_starts {t : Telemetry} {s : MetricsSettings} (idle : ¬ t.Starts s)
    (f : MetricsFaults) : ∃ given, t.setupMetrics s f = (t, .ok given) := by
  unfold Telemetry.setupMetrics
  cases enabled : s.enabled with
  | false => exact ⟨none, rfl⟩
  | true =>
      cases held : t.meter.slot.held with
      | none => exact absurd ⟨enabled, held⟩ idle
      | some id => exact ⟨some id, rfl⟩

/-- The Prometheus part makes the registry when its imports are there, and has a reader for it when
nothing at all is raised. -/
theorem prometheusReader_eq (t : Telemetry) {s : MetricsSettings} (f : MetricsFaults)
    (prometheus : s.prometheus = true) :
    t.prometheusReader f =
      ({ t with registry := if f.exporter = none then some none else t.registry },
        match f.late s with
        | some e => .error e
        | none => .ok (f.exporter = none ∧ f.reader = none)) := by
  obtain ⟨sdk, otlp, exporter, reader, provider⟩ := f
  unfold MetricsFaults.late
  rw [if_pos prometheus]
  rcases exporter with _ | _ | e
  · rcases reader with _ | _ | e <;> rfl
  · rfl
  · rfl

theorem reader_ne_none_of_late {s : MetricsSettings} {f : MetricsFaults} {e : Fault}
    (late : f.late s = some e) (found : f.exporter = none) : f.reader ≠ none := by
  intro absent
  unfold MetricsFaults.late at late
  rw [found, absent] at late
  cases prometheus : s.prometheus <;> simp [prometheus] at late

theorem late_of_not_prometheus {s : MetricsSettings} (f : MetricsFaults)
    (without : s.prometheus = false) : f.late s = none := by
  simp [MetricsFaults.late, without]

theorem sets_setupMetrics (t : Telemetry) (s : MetricsSettings) (f : MetricsFaults) :
    Sets t s f (t.setupMetrics s f) := by
  by_cases starts : t.Starts s
  · have failed (e : Fault) := @Sets.failed t s f e starts
    have built := @Sets.built t s f starts
    simp only [MetricsFaults.first, MetricsFaults.Strands, MetricsFaults.MakesRegistry]
      at failed built
    rw [setupMetrics_of_starts starts]
    cases early : f.early s with
    | some e => simpa [early] using failed e
    | none =>
        cases prometheus : s.prometheus with
        | false =>
            have late := late_of_not_prometheus f prometheus
            cases provider : f.provider with
            | some e =>
                simpa [early, late, prometheus, provider, Telemetry.meterProvider] using failed e
            | none =>
                simpa [early, late, prometheus, provider, Telemetry.meterProvider] using built
        | true =>
            rw [if_pos rfl, prometheusReader_eq t f prometheus]
            cases late : f.late s with
            | some e =>
                by_cases found : f.exporter = none
                · have broken := reader_ne_none_of_late late found
                  simpa [early, prometheus, late, found, broken] using failed e
                · simpa [early, prometheus, late, found] using failed e
            | none =>
                cases provider : f.provider with
                | some e =>
                    simpa [early, prometheus, late, provider, Telemetry.meterProvider] using
                      failed e
                | none =>
                    cases exporter : f.exporter <;> cases reader : f.reader <;>
                      simpa [early, prometheus, late, provider, exporter, reader,
                        Telemetry.meterProvider] using built
  · obtain ⟨given, same⟩ := setupMetrics_of_not_starts starts f
    rw [same]
    exact .skipped starts

/-! ## What a call does to a provider -/

/-- The setup of the metrics that a call comes to. -/
def Op.metricsCall : Op → Option (MetricsSettings × MetricsFaults)
  | .setupMetrics s f => some (s, f)
  | .setupTelemetry s f => if s.enabled then some (s.metrics, f.metrics) else none
  | .shutdownMetrics _ => none
  | .shutdownTelemetry _ _ => none

namespace Telemetry

/-- A setup of the metrics that raises. -/
def Fails (t : Telemetry) (s : MetricsSettings) (f : MetricsFaults) : Prop :=
  t.Starts s ∧ f.first s ≠ none
  deriving Decidable

/-- A call that builds a meter provider; it hands it to the API. -/
def makesMeter (t : Telemetry) (op : Op) : Option Bool :=
  match op.metricsCall with
  | none => none
  | some (s, f) => if t.Starts s ∧ f.first s = none then some true else none

/-- A call that builds a tracer provider, and whether it hands it to the API. -/
def makesTracer (t : Telemetry) : Op → Option Bool
  | .setupTelemetry s f =>
      if s.enabled = true ∧ ¬ t.Fails s.metrics f.metrics ∧ t.tracer.slot.held = none ∧
          f.sdk = none ∧ f.provider = none then
        some f.exporter.isNone
      else none
  | _ => none

/-- A call that makes a registry, and no provider that collects into it. -/
def Strands (t : Telemetry) (op : Op) : Prop :=
  ∃ call ∈ op.metricsCall, t.Starts call.1 ∧ call.2.Strands call.1

end Telemetry

/-- The provider that a call leaves, when it makes one or not. -/
def made (provider : Registered) : Option Bool → Registered
  | none => provider
  | some registers => provider.make registers

theorem tracer_setupMetrics (t : Telemetry) (s : MetricsSettings) (f : MetricsFaults) :
    (t.setupMetrics s f).1.tracer = t.tracer := by
  have sets := sets_setupMetrics t s f
  generalize t.setupMetrics s f = result at sets
  cases sets <;> rfl

theorem tracerProvider_fst (t : Telemetry) (f : TelemetryFaults) :
    (t.tracerProvider f).1 =
      { t with
          tracer := made t.tracer
            (if t.tracer.slot.held = none ∧ f.provider = none then some f.exporter.isNone
            else none) } := by
  unfold Telemetry.tracerProvider
  cases held : t.tracer.slot.held with
  | some id => rfl
  | none =>
      cases provider : f.provider with
      | some e => rfl
      | none => cases exporter : f.exporter <;> rfl

/-- The setup of the telemetry is the setup of the metrics, and a tracer provider on top. -/
theorem setupTelemetry_fst {t : Telemetry} {s : TelemetrySettings} (f : TelemetryFaults)
    (enabled : s.enabled = true) :
    (t.setupTelemetry s f).1 =
      { (t.setupMetrics s.metrics f.metrics).1 with
          tracer := made t.tracer (t.makesTracer (.setupTelemetry s f)) } := by
  have sets := sets_setupMetrics t s.metrics f.metrics
  have kept := tracer_setupMetrics t s.metrics f.metrics
  simp only [Telemetry.setupTelemetry, Telemetry.makesTracer, Telemetry.Fails, enabled]
  cases result : t.setupMetrics s.metrics f.metrics with
  | mk after outcome =>
  rw [result] at sets kept
  cases outcome with
  | error e =>
      have fails : t.Starts s.metrics ∧ f.metrics.first s.metrics ≠ none := by
        cases sets with
        | failed starts first => exact ⟨starts, fun same => by rw [same] at first; cases first⟩
      simp [fails, made, ← kept]
  | ok given =>
      have fine : ¬ (t.Starts s.metrics ∧ f.metrics.first s.metrics ≠ none) := by
        rintro ⟨starts, first⟩
        cases sets with
        | skipped idle => exact idle starts
        | built _ absent => exact first absent
      cases sdk : f.sdk with
      | some e => simp [made, ← kept]
      | none =>
          have ends := tracerProvider_fst after f
          rw [kept] at ends
          cases tracer : after.tracerProvider f with
          | mk last outcome =>
          rw [tracer] at ends
          obtain rfl := ends
          cases outcome with
          | error e => simp [fine, tracer]
          | ok _ => cases instrument : f.instrument <;> simp [fine, tracer]

/-- The globals after the shutdown of some of the providers. -/
def shut (t : Telemetry) (meters tracers : Bool) : Telemetry where
  meter := if meters then t.meter.release else t.meter
  registry := if meters then none else t.registry
  tracer := if tracers then t.tracer.release else t.tracer

/-- What a call does: it sets the metrics up, and may put a tracer provider on top, or shuts some
of the providers down. -/
inductive Does (t : Telemetry) (op : Op) : Telemetry → Prop
  | setUp {s : MetricsSettings} {f : MetricsFaults} (call : op.metricsCall = some (s, f)) :
      Does t op
        { (t.setupMetrics s f).1 with tracer := made t.tracer (t.makesTracer op) }
  | shut {meters tracers : Bool} (call : op.metricsCall = none)
      (makes : t.makesTracer op = none) : Does t op (shut t meters tracers)

theorem shutdownMetrics_fst (t : Telemetry) (raised : Option PyExc) :
    ∃ meters, (t.shutdownMetrics raised).1 = shut t meters false := by
  unfold Telemetry.shutdownMetrics
  cases held : t.meter.slot.held with
  | none => exact ⟨false, rfl⟩
  | some id => exact ⟨true, rfl⟩

theorem shutdownTelemetry_fst (t : Telemetry) (meterRaised tracerRaised : Option PyExc) :
    ∃ meters tracers, (t.shutdownTelemetry meterRaised tracerRaised).1 = shut t meters tracers := by
  obtain ⟨meters, first⟩ := shutdownMetrics_fst t meterRaised
  refine ⟨meters, ?_⟩
  unfold Telemetry.shutdownTelemetry
  cases result : t.shutdownMetrics meterRaised with
  | mk after outcome =>
  rw [result] at first
  obtain rfl := first
  cases outcome with
  | error e => exact ⟨false, rfl⟩
  | ok _ =>
      cases held : t.tracer.slot.held with
      | none => exact ⟨false, by simp [shut, held]⟩
      | some id => exact ⟨true, by simp [shut, held]⟩

theorem does_of_step {t next : Telemetry} {op : Op} (taken : step t op = some next) :
    Does t op next := by
  cases op with
  | setupMetrics s f =>
      obtain rfl := Option.some.inj taken
      have same : (t.setupMetrics s f).1 =
          { (t.setupMetrics s f).1 with tracer := made t.tracer none } :=
        congrArg (fun tracer => { (t.setupMetrics s f).1 with tracer })
          (tracer_setupMetrics t s f)
      rw [same]
      exact .setUp rfl
  | shutdownMetrics raised =>
      obtain rfl := Option.some.inj taken
      obtain ⟨meters, same⟩ := shutdownMetrics_fst t raised
      rw [same]
      exact .shut rfl rfl
  | setupTelemetry s f =>
      obtain rfl := Option.some.inj taken
      cases enabled : s.enabled with
      | true =>
          rw [setupTelemetry_fst f enabled]
          exact .setUp (if_pos enabled)
      | false =>
          have idle : (t.setupTelemetry s f).1 = shut t false false := by
            simp [Telemetry.setupTelemetry, shut, enabled]
          rw [idle]
          exact .shut (by simp [Op.metricsCall, enabled])
            (by simp [Telemetry.makesTracer, enabled])
  | shutdownTelemetry meterRaised tracerRaised =>
      obtain rfl := Option.some.inj taken
      obtain ⟨meters, tracers, same⟩ := shutdownTelemetry_fst t meterRaised tracerRaised
      rw [same]
      exact .shut rfl rfl

/-! ## The providers that are reached -/

section Steps

variable {t next : Telemetry} {op : Op}

theorem meter_made {registers : Bool} (makes : t.makesMeter op = some registers)
    (taken : step t op = some next) : next.meter = t.meter.make registers := by
  unfold Telemetry.makesMeter at makes
  cases does_of_step taken with
  | shut call _ =>
      rw [call] at makes
      cases makes
  | @setUp s f call =>
      simp only [call, Option.ite_none_right_eq_some, Option.some.injEq] at makes
      obtain ⟨⟨starts, fine⟩, rfl⟩ := makes
      have sets := sets_setupMetrics t s f
      generalize t.setupMetrics s f = result at sets
      cases sets with
      | skipped idle => exact absurd starts idle
      | failed _ first => exact absurd (fine.symm.trans first) (Option.some_ne_none _).symm
      | built _ _ => rfl

theorem meter_others (makes : t.makesMeter op = none) (taken : step t op = some next) :
    next.meter = t.meter ∨ next.meter = t.meter.release := by
  unfold Telemetry.makesMeter at makes
  cases does_of_step taken with
  | @shut meters tracers _ _ => cases meters <;> simp [shut]
  | @setUp s f call =>
      simp only [call, ite_eq_right_iff] at makes
      have sets := sets_setupMetrics t s f
      generalize t.setupMetrics s f = result at sets
      cases sets with
      | skipped _ => exact .inl rfl
      | failed _ _ => exact .inl rfl
      | built starts first => cases makes ⟨starts, first⟩

theorem tracer_made {registers : Bool} (makes : t.makesTracer op = some registers)
    (taken : step t op = some next) : next.tracer = t.tracer.make registers := by
  cases does_of_step taken with
  | shut _ absent =>
      rw [absent] at makes
      cases makes
  | setUp _ =>
      rw [makes]
      rfl

theorem tracer_others (makes : t.makesTracer op = none) (taken : step t op = some next) :
    next.tracer = t.tracer ∨ next.tracer = t.tracer.release := by
  cases does_of_step taken with
  | @shut meters tracers _ _ => cases tracers <;> simp [shut]
  | setUp _ =>
      rw [makes]
      exact .inl rfl

end Steps

/-- What is measured and traced goes to the providers that are held. -/
def Telemetry.Reached (t : Telemetry) : Prop := t.meter.Reaches ∧ t.tracer.Reaches

/-- A provider that the call makes is the first that the API is given, and is given to it. -/
def Telemetry.FirstOfItsKind (t : Telemetry) (op : Op) : Prop :=
  (∀ registers ∈ t.makesMeter op, t.meter.registered = none ∧ registers = true) ∧
    ∀ registers ∈ t.makesTracer op, t.tracer.registered = none ∧ registers = true

/-- **What is held is what the API has, for both signals and in every state,** exactly when each
provider that is made is the first of its kind and its exporter is built. -/
theorem providers_reached_iff {ops : List Op} {t : Telemetry} (run : exec step start ops = some t) :
    EveryState step Telemetry.Reached start ops ↔
      EveryStep step Telemetry.FirstOfItsKind start ops := by
  have meters := reaches_iff Telemetry.meter Telemetry.makesMeter
    (fun _ _ _ _ makes taken => meter_made makes taken)
    (fun _ _ _ makes taken => meter_others makes taken) run Registered.reaches_empty
  have tracers := reaches_iff Telemetry.tracer Telemetry.makesTracer
    (fun _ _ _ _ makes taken => tracer_made makes taken)
    (fun _ _ _ makes taken => tracer_others makes taken) run Registered.reaches_empty
  exact everyState_and_iff.trans ((and_congr meters tracers).trans everyStep_and_iff.symm)

/-- A process that sets its telemetry up again after it shut it down. -/
def setUpAgain : List Op :=
  [.setupTelemetry {} {}, .shutdownTelemetry none (some (.error 1)), .setupTelemetry {} {}]

theorem setUpAgain_unreached : ¬ EveryState step Telemetry.Reached start setUpAgain := by
  rw [providers_reached_iff rfl]
  intro every
  have first := ((every.2 _ rfl).2 _ rfl).1.1 true rfl
  exact absurd first.1 (by decide)

/-! ## No provider lost -/

theorem meter_free {t : Telemetry} {op : Op} (makes : t.makesMeter op ≠ none) :
    t.meter.slot.held = none := by
  unfold Telemetry.makesMeter at makes
  cases call : op.metricsCall with
  | none => simp [call] at makes
  | some call' =>
      simp only [call, ne_eq, ite_eq_right_iff, Classical.not_imp] at makes
      exact makes.1.1.2

theorem tracer_free {t : Telemetry} {op : Op} (makes : t.makesTracer op ≠ none) :
    t.tracer.slot.held = none := by
  cases op with
  | setupTelemetry s f =>
      simp only [Telemetry.makesTracer, ne_eq, ite_eq_right_iff, Classical.not_imp] at makes
      exact makes.1.2.2.1
  | _ => exact absurd rfl makes

/-- Every meter provider ever made is the one that is held or was shut down, once. -/
theorem meters_noneLost {ops : List Op} {t : Telemetry} (run : exec step start ops = some t) :
    EveryState step (fun t => t.meter.slot.NoneLost) start ops := by
  refine (noneLost_iff (fun t => t.meter.slot) (fun t op => t.makesMeter op ≠ none) ?_ ?_ run
    Slot.noneLost_empty).mpr ?_
  · intro t op next makes taken
    obtain ⟨registers, makes⟩ := Option.ne_none_iff_exists'.mp makes
    exact congrArg Registered.slot (meter_made makes taken)
  · intro t op next other taken
    exact (meter_others (not_not.mp other) taken).imp (congrArg Registered.slot)
      (congrArg Registered.slot)
  · exact everyStep_of_forall_mem (fun _ _ _ => meter_free) start

/-- Every tracer provider ever made is the one that is held or was shut down, once. -/
theorem tracers_noneLost {ops : List Op} {t : Telemetry} (run : exec step start ops = some t) :
    EveryState step (fun t => t.tracer.slot.NoneLost) start ops := by
  refine (noneLost_iff (fun t => t.tracer.slot) (fun t op => t.makesTracer op ≠ none) ?_ ?_ run
    Slot.noneLost_empty).mpr ?_
  · intro t op next makes taken
    obtain ⟨registers, makes⟩ := Option.ne_none_iff_exists'.mp makes
    exact congrArg Registered.slot (tracer_made makes taken)
  · intro t op next other taken
    exact (tracer_others (not_not.mp other) taken).imp (congrArg Registered.slot)
      (congrArg Registered.slot)
  · exact everyStep_of_forall_mem (fun _ _ _ => tracer_free) start

/-! ## The scrape endpoint -/

/-- The endpoint serves what the provider that is held collects, if it serves anything. -/
def Telemetry.ScrapesHeld (t : Telemetry) : Prop :=
  ∀ collector, t.scrape = .latest collector → collector ≠ none ∧ collector = t.meter.slot.held

section Scraping

variable {t next : Telemetry} {op : Op}

theorem scrapesHeld_iff :
    t.ScrapesHeld ↔ ∀ collector ∈ t.registry, collector ≠ none ∧ collector = t.meter.slot.held := by
  unfold Telemetry.ScrapesHeld Telemetry.scrape
  cases t.registry <;> simp

theorem scrapesHeld_of_registry_eq_none (absent : t.registry = none) : t.ScrapesHeld := by
  rw [scrapesHeld_iff, absent]
  exact fun _ member => absurd member (Option.not_mem_none _)

/-- Without a provider there is nothing to serve. -/
theorem registry_eq_none (serves : t.ScrapesHeld) (free : t.meter.slot.held = none) :
    t.registry = none := by
  cases registry : t.registry with
  | none => rfl
  | some collector =>
      obtain ⟨collected, held⟩ := scrapesHeld_iff.mp serves collector registry
      exact absurd (held.trans free) collected

theorem scrapesHeld_step (serves : t.ScrapesHeld) (sound : ¬ t.Strands op)
    (taken : step t op = some next) : next.ScrapesHeld := by
  cases does_of_step taken with
  | @shut meters tracers _ _ =>
      cases meters with
      | true => exact scrapesHeld_of_registry_eq_none rfl
      | false => exact serves
  | @setUp s f call =>
      have sets := sets_setupMetrics t s f
      generalize t.setupMetrics s f = result at sets
      cases sets with
      | skipped _ => exact serves
      | failed starts _ =>
          have kept : ¬ f.Strands s := fun strands => sound ⟨(s, f), call, starts, strands⟩
          refine scrapesHeld_of_registry_eq_none ?_
          exact (if_neg kept).trans (registry_eq_none serves starts.2)
      | built starts _ =>
          have kept : ¬ f.Strands s := fun strands => sound ⟨(s, f), call, starts, strands⟩
          by_cases makes : f.MakesRegistry s
          · refine scrapesHeld_iff.mpr fun collector member => ?_
            simp only [if_neg kept, if_pos makes, Option.mem_some_iff] at member
            subst member
            exact ⟨Option.some_ne_none _, rfl⟩
          · refine scrapesHeld_of_registry_eq_none ?_
            simpa only [if_neg kept, if_neg makes] using registry_eq_none serves starts.2

/-- A setup that strands its registry leaves one that no provider collects into. -/
theorem not_scrapesHeld_of_strands (strands : t.Strands op) (taken : step t op = some next) :
    ¬ next.ScrapesHeld := by
  obtain ⟨⟨s, f⟩, call, starts, strands⟩ := strands
  suffices stranded : next.registry = some none by
    intro serves
    exact (scrapesHeld_iff.mp serves none stranded).1 rfl
  cases does_of_step taken with
  | shut absent _ => cases absent.symm.trans call
  | @setUp s' f' call' =>
      obtain ⟨rfl, rfl⟩ := Prod.mk.inj (Option.some.inj (call.symm.trans call'))
      have sets := sets_setupMetrics t s f
      generalize t.setupMetrics s f = result at sets
      cases sets with
      | skipped idle => exact absurd starts idle
      | failed _ _ => exact if_pos strands
      | built _ _ => exact if_pos strands

end Scraping

/-- **The endpoint serves what the held provider collects, or says that nothing is initialized, in
every state,** exactly when no setup makes a registry and then no provider that collects into
it. -/
theorem scrapes_held_iff {ops : List Op} {t : Telemetry} (run : exec step start ops = some t) :
    EveryState step Telemetry.ScrapesHeld start ops ↔
      EveryStep step (fun t op => ¬ t.Strands op) start ops :=
  everyState_iff_everyStep (fun _ serves => serves)
    (fun _ _ _ _ sound serves taken => scrapesHeld_step serves sound taken)
    (fun _ _ _ _ strands _ taken => not_scrapesHeld_of_strands (not_not.mp strands) taken) run
    (everyStep_of_forall_mem (fun _ _ _ => trivial) start)
    (scrapesHeld_of_registry_eq_none rfl)

/-- A setup with Prometheus whose provider cannot be built, and one without that can: the endpoint
then serves the registry of the first. -/
def stranded : List Op :=
  [.setupMetrics { prometheus := true } { provider := some (.other (.error 1)) },
    .setupMetrics {} {}]

theorem stranded_served : ¬ EveryState step Telemetry.ScrapesHeld start stranded := by
  rw [scrapes_held_iff rfl]
  intro every
  exact every.1 ⟨_, rfl, by decide, by decide⟩

end PyCommon.Providers
