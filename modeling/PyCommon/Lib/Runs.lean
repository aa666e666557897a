import Mathlib.Data.List.Basic

/-!
# Runs of a labelled step function

A system is a step function that may refuse a label. A run is a list of labels
each of which is accepted in its turn (`exec`). A condition on steps holds of a
run when it holds of every label in the state in which the label is taken
(`EveryStep`), and a property of states holds of a run when it holds of every
state the run passes through (`EveryState`).

The induction over runs is done here once. A property preserved by every step
that meets a condition holds at the end of a run whose steps meet it
(`exec_invariant`) and everywhere along it (`everyState_of_preserved`). When the
steps outside the condition destroy the property, the property holds along a run
exactly when the condition does (`everyState_iff_everyStep`). That one kind of step comes
after another, with only steps of a third kind between them, is said by nesting `Until`,
and an occurrence is told from the end of a run (`until_of_last`, `Until.concat`) or from
its beginning (`exists_of_until`). A run is compared with the run that leaves some of its
labels out by a relation between their states (`exec_filter`).
-/

set_option autoImplicit false

namespace StepSystem

universe u v w

variable {State : Type u} {Label : Type v}

/-! ## Runs -/

/-- The state after a list of labels, when each is accepted in its turn. -/
def exec (step : State → Label → Option State) : State → List Label → Option State
  | s, [] => some s
  | s, l :: ls => (step s l).bind fun next => exec step next ls

/-- Every label of the run is taken in a state that meets the condition. -/
def EveryStep (step : State → Label → Option State) (ok : State → Label → Prop) :
    State → List Label → Prop
  | _, [] => True
  | s, l :: ls => ok s l ∧ ∀ next, step s l = some next → EveryStep step ok next ls

/-- Every state of the run has the property, the first and the last included. -/
def EveryState (step : State → Label → Option State) (holds : State → Prop) :
    State → List Label → Prop
  | s, [] => holds s
  | s, l :: ls => holds s ∧ ∀ next, step s l = some next → EveryState step holds next ls

variable {step : State → Label → Option State}

@[simp] theorem exec_nil (s : State) : exec step s [] = some s := rfl

theorem exec_cons {s : State} {l : Label} {ls : List Label} :
    exec step s (l :: ls) = (step s l).bind fun next => exec step next ls := rfl

theorem exec_cons_eq_some {s t : State} {l : Label} {ls : List Label} :
    exec step s (l :: ls) = some t ↔
      ∃ next, step s l = some next ∧ exec step next ls = some t := by
  rw [exec_cons, Option.bind_eq_some_iff]

theorem exec_append {s : State} {ls ms : List Label} :
    exec step s (ls ++ ms) = (exec step s ls).bind fun next => exec step next ms := by
  induction ls generalizing s with
  | nil => rfl
  | cons l ls ih =>
      rw [List.cons_append, exec_cons, exec_cons]
      cases taken : step s l with
      | none => rfl
      | some next => exact ih

theorem exec_append_of_eq_some {s next : State} {ls ms : List Label}
    (first : exec step s ls = some next) : exec step s (ls ++ ms) = exec step next ms := by
  rw [exec_append, first, Option.bind_some]

theorem exec_concat_eq_some {s t : State} {ls : List Label} {l : Label}
    (run : exec step s (ls ++ [l]) = some t) :
    ∃ middle, exec step s ls = some middle ∧ step middle l = some t := by
  rw [exec_append, Option.bind_eq_some_iff] at run
  obtain ⟨middle, first, last⟩ := run
  obtain ⟨next, taken, same⟩ := exec_cons_eq_some.mp last
  exact ⟨middle, first, taken.trans same⟩

/-- What is said of whatever a step leads to is said of the state it leads to. -/
theorem forall_taken_iff {s next : State} {l : Label} {holds : State → Prop}
    (taken : step s l = some next) : (∀ u, step s l = some u → holds u) ↔ holds next := by
  constructor
  · intro every
    exact every next taken
  · intro there u also
    obtain rfl := Option.some.inj (taken.symm.trans also)
    exact there

/-! ## Conditions on steps -/

/-- The condition on a run is the condition on its first step and on the rest. -/
theorem everyStep_cons {ok : State → Label → Prop} {s next : State} {l : Label} {ls : List Label}
    (taken : step s l = some next) :
    EveryStep step ok s (l :: ls) ↔ ok s l ∧ EveryStep step ok next ls :=
  and_congr_right fun _ => forall_taken_iff taken

theorem EveryStep.mono {ok weaker : State → Label → Prop}
    (sub : ∀ s l, ok s l → weaker s l) {s : State} {ls : List Label}
    (every : EveryStep step ok s ls) : EveryStep step weaker s ls := by
  induction ls generalizing s with
  | nil => trivial
  | cons l ls ih => exact ⟨sub s l every.1, fun next taken => ih (every.2 next taken)⟩

/-- A condition that the labels meet in every state. -/
theorem everyStep_of_forall_mem {ok : State → Label → Prop} {ls : List Label}
    (each : ∀ l ∈ ls, ∀ s, ok s l) (s : State) : EveryStep step ok s ls := by
  induction ls generalizing s with
  | nil => trivial
  | cons l ls ih =>
      refine ⟨each l List.mem_cons_self s, fun next _ => ?_⟩
      exact ih (fun later member => each later (List.mem_cons_of_mem l member)) next

/-- A condition on steps that can be decided can be decided of a run. -/
instance EveryStep.decidable {ok : State → Label → Prop} [∀ s l, Decidable (ok s l)] :
    ∀ s ls, Decidable (EveryStep step ok s ls)
  | _, [] => isTrue trivial
  | s, l :: ls =>
      have _later : ∀ next, Decidable (EveryStep step ok next ls) := fun next =>
        EveryStep.decidable next ls
      inferInstanceAs (Decidable (ok s l ∧ ∀ next ∈ step s l, EveryStep step ok next ls))

/-- The condition on a run is the condition on its two parts. -/
theorem everyStep_append {ok : State → Label → Prop} {s next : State} {ls ms : List Label}
    (first : exec step s ls = some next) :
    EveryStep step ok s (ls ++ ms) ↔ EveryStep step ok s ls ∧ EveryStep step ok next ms := by
  induction ls generalizing s with
  | nil =>
      obtain rfl := Option.some.inj first
      exact ⟨fun every => ⟨trivial, every⟩, fun every => every.2⟩
  | cons l ls ih =>
      obtain ⟨middle, taken, rest⟩ := exec_cons_eq_some.mp first
      rw [List.cons_append, everyStep_cons taken, everyStep_cons taken, ih rest, and_assoc]

/-! ## Invariants -/

/-- **The invariant rule.** A property that every step meeting the condition
preserves holds at the end of every run whose steps meet it. -/
theorem exec_invariant {ok : State → Label → Prop} {holds : State → Prop}
    (preserved : ∀ s l next, ok s l → holds s → step s l = some next → holds next)
    {s t : State} {ls : List Label} (run : exec step s ls = some t)
    (every : EveryStep step ok s ls) (start : holds s) : holds t := by
  induction ls generalizing s with
  | nil =>
      obtain rfl := Option.some.inj run
      exact start
  | cons l ls ih =>
      obtain ⟨next, taken, rest⟩ := exec_cons_eq_some.mp run
      exact ih rest (every.2 next taken) (preserved s l next every.1 start taken)

/-- The invariant rule for a property every step preserves. -/
theorem exec_invariant_always {holds : State → Prop}
    (preserved : ∀ s l next, holds s → step s l = some next → holds next)
    {s t : State} {ls : List Label} (run : exec step s ls = some t) (start : holds s) :
    holds t := by
  induction ls generalizing s with
  | nil =>
      obtain rfl := Option.some.inj run
      exact start
  | cons l ls ih =>
      obtain ⟨next, taken, rest⟩ := exec_cons_eq_some.mp run
      exact ih rest (preserved s l next start taken)

/-- A preserved property holds of every state of the run. -/
theorem everyState_of_preserved {ok : State → Label → Prop} {holds : State → Prop}
    (preserved : ∀ s l next, ok s l → holds s → step s l = some next → holds next)
    {s : State} {ls : List Label} (every : EveryStep step ok s ls) (start : holds s) :
    EveryState step holds s ls := by
  induction ls generalizing s with
  | nil => exact start
  | cons l ls ih =>
      exact ⟨start, fun next taken =>
        ih (every.2 next taken) (preserved s l next every.1 start taken)⟩

theorem everyState_cons {holds : State → Prop} {s next : State} {l : Label} {ls : List Label}
    (taken : step s l = some next) :
    EveryState step holds s (l :: ls) ↔ holds s ∧ EveryState step holds next ls :=
  and_congr_right fun _ => forall_taken_iff taken

theorem EveryState.first {holds : State → Prop} {s : State} {ls : List Label}
    (every : EveryState step holds s ls) : holds s := by
  cases ls with
  | nil => exact every
  | cons l ls => exact every.1

theorem EveryState.last {holds : State → Prop} {s t : State} {ls : List Label}
    (every : EveryState step holds s ls) (run : exec step s ls = some t) : holds t := by
  induction ls generalizing s with
  | nil =>
      obtain rfl := Option.some.inj run
      exact every
  | cons l ls ih =>
      obtain ⟨next, taken, rest⟩ := exec_cons_eq_some.mp run
      exact ih (every.2 next taken) rest

/-- A property of states that can be decided can be decided of a run. -/
instance EveryState.decidable {holds : State → Prop} [∀ s, Decidable (holds s)] :
    ∀ s ls, Decidable (EveryState step holds s ls)
  | s, [] => inferInstanceAs (Decidable (holds s))
  | s, l :: ls =>
      have _later : ∀ next, Decidable (EveryState step holds next ls) := fun next =>
        EveryState.decidable next ls
      inferInstanceAs (Decidable (holds s ∧ ∀ next ∈ step s l, EveryState step holds next ls))

theorem EveryState.mono {holds weaker : State → Prop} (sub : ∀ s, holds s → weaker s)
    {s : State} {ls : List Label} (every : EveryState step holds s ls) :
    EveryState step weaker s ls := by
  induction ls generalizing s with
  | nil => exact sub s every
  | cons l ls ih => exact ⟨sub s every.1, fun next taken => ih (every.2 next taken)⟩

/-- Two properties hold along a run when each does. -/
theorem everyState_and_iff {holds other : State → Prop} {s : State} {ls : List Label} :
    EveryState step (fun s => holds s ∧ other s) s ls ↔
      EveryState step holds s ls ∧ EveryState step other s ls := by
  induction ls generalizing s with
  | nil => exact Iff.rfl
  | cons l ls ih =>
      constructor
      · rintro ⟨⟨first, second⟩, later⟩
        exact ⟨⟨first, fun next taken => (ih.mp (later next taken)).1⟩,
          ⟨second, fun next taken => (ih.mp (later next taken)).2⟩⟩
      · rintro ⟨⟨first, after⟩, ⟨second, later⟩⟩
        exact ⟨⟨first, second⟩, fun next taken => ih.mpr ⟨after next taken, later next taken⟩⟩

/-- Two conditions hold of the steps of a run when each does. -/
theorem everyStep_and_iff {ok other : State → Label → Prop} {s : State} {ls : List Label} :
    EveryStep step (fun s l => ok s l ∧ other s l) s ls ↔
      EveryStep step ok s ls ∧ EveryStep step other s ls := by
  induction ls generalizing s with
  | nil => exact ⟨fun _ => ⟨trivial, trivial⟩, fun _ => trivial⟩
  | cons l ls ih =>
      constructor
      · rintro ⟨⟨first, second⟩, later⟩
        exact ⟨⟨first, fun next taken => (ih.mp (later next taken)).1⟩,
          ⟨second, fun next taken => (ih.mp (later next taken)).2⟩⟩
      · rintro ⟨⟨first, after⟩, ⟨second, later⟩⟩
        exact ⟨⟨first, second⟩, fun next taken => ih.mpr ⟨after next taken, later next taken⟩⟩

/-- What a preserved property makes of another property of the states of a run. -/
theorem EveryState.of_invariant {inner holds makes : State → Prop}
    (preserved : ∀ s l next, inner s → step s l = some next → inner next)
    (sub : ∀ s, inner s → holds s → makes s) {s : State} {ls : List Label}
    (every : EveryState step holds s ls) (start : inner s) : EveryState step makes s ls := by
  induction ls generalizing s with
  | nil => exact sub s start every
  | cons l ls ih =>
      exact ⟨sub s start every.1, fun next taken =>
        ih (every.2 next taken) (preserved s l next start taken)⟩

/-- What every step from a state with a preserved property does holds of the run. -/
theorem everyStep_of_invariant {ok does : State → Label → Prop} {holds : State → Prop}
    (preserved : ∀ s l next, ok s l → holds s → step s l = some next → holds next)
    (each : ∀ s l, ok s l → holds s → does s l) {s : State} {ls : List Label}
    (every : EveryStep step ok s ls) (start : holds s) : EveryStep step does s ls := by
  induction ls generalizing s with
  | nil => trivial
  | cons l ls ih =>
      refine ⟨each s l every.1 start, fun next taken => ?_⟩
      exact ih (every.2 next taken) (preserved s l next every.1 start taken)

/-- **The exact condition of a property of runs.** Suppose that the steps that meet
the condition preserve `inner`, which implies the property, and that from a state
with `inner` the steps that do not meet it destroy the property. Then along a run the
property holds everywhere exactly when every step meets the condition. -/
theorem everyState_iff_everyStep {side ok : State → Label → Prop} {inner holds : State → Prop}
    (sub : ∀ s, inner s → holds s)
    (kept : ∀ s l next, side s l → ok s l → inner s → step s l = some next → inner next)
    (broken : ∀ s l next, side s l → ¬ ok s l → inner s → step s l = some next → ¬ holds next)
    {s t : State} {ls : List Label} (run : exec step s ls = some t)
    (every : EveryStep step side s ls) (start : inner s) :
    EveryState step holds s ls ↔ EveryStep step ok s ls := by
  induction ls generalizing s with
  | nil => exact ⟨fun _ => trivial, fun _ => sub s start⟩
  | cons l ls ih =>
      obtain ⟨next, taken, rest⟩ := exec_cons_eq_some.mp run
      rw [everyState_cons taken, everyStep_cons taken]
      have after := every.2 next taken
      constructor
      · rintro ⟨_, later⟩
        have here : ok s l := by
          by_contra outside
          exact broken s l next every.1 outside start taken later.first
        exact ⟨here, (ih rest after (kept s l next every.1 here start taken)).mp later⟩
      · rintro ⟨here, later⟩
        exact ⟨sub s start, (ih rest after (kept s l next every.1 here start taken)).mpr later⟩

/-- What no step mends holds along a run exactly when it holds at its end. -/
theorem everyState_iff_last {holds : State → Prop}
    (lasting : ∀ s l next, ¬ holds s → step s l = some next → ¬ holds next) {s t : State}
    {ls : List Label} (run : exec step s ls = some t) : EveryState step holds s ls ↔ holds t := by
  induction ls generalizing s with
  | nil =>
      obtain rfl := Option.some.inj run
      exact Iff.rfl
  | cons l ls ih =>
      obtain ⟨next, taken, rest⟩ := exec_cons_eq_some.mp run
      rw [everyState_cons taken, ih rest, and_iff_right_iff_imp]
      intro last
      by_contra broken
      refine exec_invariant_always lasting rest (lasting s l next broken taken) last

/-! ## One step after another -/

/-- The steps of the run meet `keep` until one of them meets `ok`, and what remains of
the run meets `after`. -/
def Until (step : State → Label → Option State) (keep ok : State → Label → Prop)
    (after : State → List Label → Prop) : State → List Label → Prop
  | _, [] => False
  | s, l :: ls => (ok s l ∧ ∃ next ∈ step s l, after next ls) ∨
      keep s l ∧ ∃ next ∈ step s l, Until step keep ok after next ls

instance Until.decidable {keep ok : State → Label → Prop} {after : State → List Label → Prop}
    [∀ s l, Decidable (keep s l)] [∀ s l, Decidable (ok s l)]
    [∀ s ls, Decidable (after s ls)] : ∀ s ls, Decidable (Until step keep ok after s ls)
  | _, [] => isFalse False.elim
  | s, l :: ls =>
      have _later : ∀ next, Decidable (Until step keep ok after next ls) := fun next =>
        Until.decidable next ls
      inferInstanceAs (Decidable ((ok s l ∧ ∃ next ∈ step s l, after next ls) ∨
        keep s l ∧ ∃ next ∈ step s l, Until step keep ok after next ls))

section Until

variable {keep ok : State → Label → Prop} {after after' : State → List Label → Prop}

/-- The step that the run leads to, with what comes before it and what comes after. -/
theorem exists_of_until {s : State} {ls : List Label} (occurs : Until step keep ok after s ls) :
    ∃ before l rest t next, ls = before ++ l :: rest ∧ exec step s before = some t ∧
      EveryStep step keep s before ∧ ok t l ∧ step t l = some next ∧ after next rest := by
  induction ls generalizing s with
  | nil => exact occurs.elim
  | cons l ls ih =>
      rcases occurs with ⟨here, next, taken, later⟩ | ⟨keeps, next, taken, later⟩
      · exact ⟨[], l, ls, s, next, rfl, rfl, trivial, here, taken, later⟩
      · obtain ⟨before, l', rest, t, next', rfl, run, kept, here, taken', after⟩ := ih later
        refine ⟨l :: before, l', rest, t, next', rfl, ?_, ?_, here, taken', after⟩
        · exact exec_cons_eq_some.mpr ⟨next, taken, run⟩
        · exact (everyStep_cons taken).mpr ⟨keeps, kept⟩

/-- The step is the last one of the run. -/
theorem until_of_last {s t next : State} {ls : List Label} {l : Label}
    (run : exec step s ls = some t) (every : EveryStep step keep s ls) (here : ok t l)
    (taken : step t l = some next) (last : after next []) :
    Until step keep ok after s (ls ++ [l]) := by
  induction ls generalizing s with
  | nil =>
      obtain rfl := Option.some.inj run
      exact .inl ⟨here, next, taken, last⟩
  | cons l' ls ih =>
      obtain ⟨middle, first, rest⟩ := exec_cons_eq_some.mp run
      exact .inr ⟨every.1, middle, first, ih rest (every.2 middle first)⟩

/-- A run that goes on by one step. -/
theorem Until.concat {s t : State} {ls : List Label} {l : Label}
    (occurs : Until step keep ok after s ls) (run : exec step s ls = some t)
    (more : ∀ u ms, exec step u ms = some t → after u ms → after' u (ms ++ [l])) :
    Until step keep ok after' s (ls ++ [l]) := by
  induction ls generalizing s with
  | nil => exact occurs.elim
  | cons l' ls ih =>
      obtain ⟨middle, first, rest⟩ := exec_cons_eq_some.mp run
      rcases occurs with ⟨here, next, taken, later⟩ | ⟨keeps, next, taken, later⟩
      · obtain rfl := Option.some.inj (first.symm.trans taken)
        exact .inl ⟨here, middle, first, more middle ls rest later⟩
      · obtain rfl := Option.some.inj (first.symm.trans taken)
        exact .inr ⟨keeps, middle, first, ih later rest⟩

/-- A condition on the steps of a run that goes on by one. -/
theorem EveryStep.concat {s t : State} {ls : List Label} {l : Label}
    (every : EveryStep step keep s ls) (run : exec step s ls = some t) (here : keep t l) :
    EveryStep step keep s (ls ++ [l]) :=
  (everyStep_append run).mpr ⟨every, here, fun _ _ => trivial⟩

end Until

/-! ## Runs with labels left out -/

/-- **The unwinding rule.** A relation between a run and the run without the labels that
`keep` refuses: a kept step is matched, and a step that is left out changes nothing that
the relation sees. Then the shorter run exists and ends in a related state. -/
theorem exec_filter {Other : Type w} {step' : Other → Label → Option Other} {keep : Label → Bool}
    {ok : State → Label → Prop} {related : State → Other → Prop}
    (kept : ∀ s u l next, ok s l → keep l = true → related s u → step s l = some next →
      ∃ next', step' u l = some next' ∧ related next next')
    (dropped : ∀ s u l next, ok s l → keep l = false → related s u → step s l = some next →
      related next u)
    {s t : State} {u : Other} {ls : List Label} (run : exec step s ls = some t)
    (every : EveryStep step ok s ls) (start : related s u) :
    ∃ v, exec step' u (ls.filter keep) = some v ∧ related t v := by
  induction ls generalizing s u with
  | nil =>
      obtain rfl := Option.some.inj run
      exact ⟨u, rfl, start⟩
  | cons l ls ih =>
      obtain ⟨next, taken, rest⟩ := exec_cons_eq_some.mp run
      cases stays : keep l with
      | true =>
          obtain ⟨next', matched, after⟩ := kept s u l next every.1 stays start taken
          obtain ⟨v, ends, last⟩ := ih rest (every.2 next taken) after
          rw [List.filter_cons_of_pos stays]
          exact ⟨v, exec_cons_eq_some.mpr ⟨next', matched, ends⟩, last⟩
      | false =>
          have refused : ¬ keep l = true := by
            rw [stays]
            exact Bool.false_ne_true
          rw [List.filter_cons_of_neg refused]
          exact ih rest (every.2 next taken) (dropped s u l next every.1 stays start taken)

/-- Two systems of which one is the image of the other, as long as its states have a property. -/
theorem exec_map {Other : Type w} {step' : Other → Label → Option Other} {side : State → Prop}
    {f : State → Other}
    (keeps : ∀ s l next, side s → step s l = some next → side next)
    (maps : ∀ s l, side s → step' (f s) l = (step s l).map f)
    {s : State} (start : side s) (ls : List Label) :
    exec step' (f s) ls = (exec step s ls).map f := by
  induction ls generalizing s with
  | nil => rfl
  | cons l ls ih =>
      rw [exec_cons, exec_cons, maps s l start]
      cases taken : step s l with
      | none => rfl
      | some next => exact ih (keeps s l next start taken)

/-- Two systems that agree, as long as their states have a property. -/
theorem exec_congr {step' : State → Label → Option State} {side : State → Prop}
    (keeps : ∀ s l next, side s → step s l = some next → side next)
    (agree : ∀ s l, side s → step' s l = step s l) {s : State} (start : side s)
    (ls : List Label) : exec step' s ls = exec step s ls := by
  have mapped : exec step' (id s) ls = (exec step s ls).map id :=
    exec_map keeps (fun s l there => (agree s l there).trans (congrFun Option.map_id _).symm)
      start ls
  exact mapped.trans (congrFun Option.map_id _)

end StepSystem
