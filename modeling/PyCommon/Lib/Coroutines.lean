import PyCommon.Lib.Runs

/-!
# Coroutines and async generators

The code of a coroutine or of an async generator runs until it comes to rest: it waits
for something, hands its consumer a message, or is over. It is resumed with the answer,
with the wish for the next message, or with an exception that is thrown into it (`Code`).
A run is what the event loop and the consumer do with the code, while the world may
change whenever the code rests (`step`).

There are two ways to wrap code. `bracket` puts it between an entry and an exit, as a
`with` statement or a `try … finally` does: from the entry on, the wrapped code shows
what the code itself shows, and the world is that of the code until the exit changes it
(`exec_bracket`). `relay` is the loop `async for message in code: yield message`. An
exception that is thrown in where a message was handed out ends the loop, and the code is
abandoned where it rests (`abandoning`). So a bracket inside a loop is left exactly if the
loop does not abandon it (`exec_abandoning_bracket`).
-/

set_option autoImplicit false

namespace Coroutines

open StepSystem

variable {World State Other Saved Await Answer Message Error Result : Type}

/-! ## Code -/

/-- Where code comes to rest. -/
inductive Rest (State Await Message Error Result : Type) where
  | awaits (awaited : Await) (s : State)
  | yields (message : Message) (s : State)
  | ends (outcome : Except Error Result)
  deriving DecidableEq

/-- What resumes code that rests. -/
inductive Input (Answer Error : Type) where
  | answer (given : Answer)
  | next
  | thrown (e : Error)

/-- What code does from one rest to the next. -/
abbrev Code (World State Await Answer Message Error Result : Type) : Type :=
  State → Input Answer Error → World → World × Rest State Await Message Error Result

/-- What others see of a rest that is not the last. -/
def Rest.shown : Rest State Await Message Error Result → List (Await ⊕ Message)
  | .awaits awaited _ => [.inl awaited]
  | .yields message _ => [.inr message]
  | .ends _ => []

/-- The same rest of code with other states. -/
def Rest.map (f : State → Other) :
    Rest State Await Message Error Result → Rest Other Await Message Error Result
  | .awaits awaited s => .awaits awaited (f s)
  | .yields message s => .yields message (f s)
  | .ends outcome => .ends outcome

@[simp] theorem Rest.shown_map (f : State → Other) (rest : Rest State Await Message Error Result) :
    (rest.map f).shown = rest.shown := by
  cases rest <;> rfl

/-! ## Runs -/

/-- Code that has not been begun, or that has come to rest. -/
inductive Position (State Await Message Error Result : Type) where
  | fresh (s : State)
  | rested (rest : Rest State Await Message Error Result)
  deriving DecidableEq

/-- The state in which an input resumes the code, where it can. -/
def Position.takes : Position State Await Message Error Result → Input Answer Error → Option State
  | .fresh s, .next => some s
  | .rested (.awaits _ s), .answer _ => some s
  | .rested (.awaits _ s), .thrown _ => some s
  | .rested (.yields _ s), .next => some s
  | .rested (.yields _ s), .thrown _ => some s
  | _, _ => none

/-- The world, where the code is, and what it has shown. -/
structure Config (World State Await Message Error Result : Type) where
  world : World
  position : Position State Await Message Error Result
  shown : List (Await ⊕ Message) := []

/-- What happens in the world while the code rests, and what resumes it then. -/
structure Resumption (World Answer Error : Type) where
  meanwhile : World → World := id
  input : Input Answer Error

/-- The code has come to rest. -/
def settle (shown : List (Await ⊕ Message))
    (done : World × Rest State Await Message Error Result) :
    Config World State Await Message Error Result :=
  ⟨done.1, .rested done.2, shown ++ done.2.shown⟩

/-- Code is resumed. An exception that is thrown into code that has not been begun ends it before
any of it runs. -/
def step (code : Code World State Await Answer Message Error Result)
    (c : Config World State Await Message Error Result) (l : Resumption World Answer Error) :
    Option (Config World State Await Message Error Result) :=
  match c.position, l.input with
  | .fresh _, .thrown e => some (settle c.shown (l.meanwhile c.world, .ends (.error e)))
  | position, input =>
      (position.takes input).map fun s => settle c.shown (code s input (l.meanwhile c.world))

variable {code : Code World State Await Answer Message Error Result}
  {c : Config World State Await Message Error Result}

/-- The outcome of code that is over. -/
def Position.outcome : Position State Await Message Error Result → Option (Except Error Result)
  | .rested (.ends outcome) => some outcome
  | _ => none

/-- What code waits for. -/
def Position.awaited : Position State Await Message Error Result → Option Await
  | .rested (.awaits awaited _) => some awaited
  | _ => none

/-- Code that waits for something has been begun. -/
theorem begun_of_awaited {world : World} {s : State} {shown : List (Await ⊕ Message)}
    {ls : List (Resumption World Answer Error)} {awaited : Await}
    (run : exec (step code) ⟨world, .fresh s, shown⟩ ls = some c)
    (waits : c.position.awaited = some awaited) :
    ∃ first rest, ls = ⟨first, .next⟩ :: rest := by
  cases ls with
  | nil =>
      obtain rfl := Option.some.inj run
      cases waits
  | cons l rest =>
      obtain ⟨first, input⟩ := l
      cases input with
      | answer given => cases run
      | next => exact ⟨first, rest, rfl⟩
      | thrown e =>
          cases rest with
          | nil =>
              obtain rfl := Option.some.inj run
              cases waits
          | cons l rest =>
              obtain ⟨meanwhile, input⟩ := l
              cases input <;> cases run

/-! ## Code between an entry and an exit -/

/-- The exit, once the code is over. -/
def leave (exit : Saved → Except Error Result → World → World) (saved : Saved)
    (done : World × Rest State Await Message Error Result) :
    World × Rest (Option Saved × State) Await Message Error Result :=
  match done.2 with
  | .ends outcome => (exit saved outcome done.1, .ends outcome)
  | rest => (done.1, rest.map fun s => (some saved, s))

/-- `with`: the entry before the code begins, which saves something for the exit. -/
def bracket (enter : World → Saved × World) (exit : Saved → Except Error Result → World → World)
    (code : Code World State Await Answer Message Error Result) :
    Code World (Option Saved × State) Await Answer Message Error Result
  | (none, s), input, world => leave exit (enter world).1 (code s input (enter world).2)
  | (some saved, s), input, world => leave exit saved (code s input world)

/-- The run of a bracket, where the run of the code is here. -/
def within (exit : Saved → Except Error Result → World → World) (saved : Saved)
    (c : Config World State Await Message Error Result) :
    Config World (Option Saved × State) Await Message Error Result where
  world := match c.position.outcome with
    | some outcome => exit saved outcome c.world
    | none => c.world
  position := match c.position with
    | .fresh s => .fresh (some saved, s)
    | .rested rest => .rested (rest.map fun s => (some saved, s))
  shown := c.shown

theorem settle_leave (exit : Saved → Except Error Result → World → World) (saved : Saved)
    (shown : List (Await ⊕ Message)) (done : World × Rest State Await Message Error Result) :
    settle shown (leave exit saved done) = within exit saved (settle shown done) := by
  obtain ⟨world, rest⟩ := done
  cases rest <;> rfl

theorem step_bracket (enter : World → Saved × World)
    (exit : Saved → Except Error Result → World → World) (saved : Saved)
    (begun : ∀ s, c.position ≠ .fresh s) (l : Resumption World Answer Error) :
    step (bracket enter exit code) (within exit saved c) l =
      (step code c l).map (within exit saved) := by
  obtain ⟨world, position, shown⟩ := c
  obtain ⟨meanwhile, input⟩ := l
  cases position with
  | fresh s => exact absurd rfl (begun s)
  | rested rest =>
      cases rest with
      | awaits awaited s =>
          cases input with
          | next => rfl
          | _ => exact congrArg some (settle_leave ..)
      | yields message s =>
          cases input with
          | answer given => rfl
          | _ => exact congrArg some (settle_leave ..)
      | ends outcome => cases input <;> rfl

/-- Code that has been begun rests. -/
theorem begun_of_step {next : Config World State Await Message Error Result}
    {l : Resumption World Answer Error} (taken : step code c l = some next) (s : State) :
    next.position ≠ .fresh s := by
  intro fresh
  unfold step at taken
  split at taken
  · obtain rfl := Option.some.inj taken
    cases fresh
  · obtain ⟨state, -, rfl⟩ := Option.map_eq_some_iff.mp taken
    cases fresh

/-- **A bracket runs its code**, in the world that the entry has left, up to the exit. -/
theorem exec_bracket (enter : World → Saved × World)
    (exit : Saved → Except Error Result → World → World) (world : World) (s : State)
    (first : World → World) (ls : List (Resumption World Answer Error)) :
    exec (step (bracket enter exit code)) ⟨world, .fresh (none, s), []⟩ (⟨first, .next⟩ :: ls) =
      (exec (step code) ⟨world, .fresh s, []⟩
        (⟨fun world => (enter (first world)).2, .next⟩ :: ls)).map
          (within exit (enter (first world)).1) := by
  rw [exec_cons, exec_cons]
  refine Eq.trans (congrArg (Option.bind · _) (congrArg some (settle_leave ..))) ?_
  exact exec_map (fun _ _ _ _ taken => begun_of_step taken)
    (fun _ l begun => step_bracket enter exit _ begun l) (fun s same => by cases same) ls

/-! ## A loop that hands messages on -/

/-- `async for message in code: yield message`. On the right the loop is in its body. -/
def relay (code : Code World State Await Answer Message Error Result) :
    Code World (State ⊕ State) Await Answer Message Error Result
  | .inr _, .thrown e, world => (world, .ends (.error e))
  | .inr s, input, world => go (code s input world)
  | .inl s, input, world => go (code s input world)
where
  go (done : World × Rest State Await Message Error Result) :
      World × Rest (State ⊕ State) Await Message Error Result :=
    match done.2 with
    | .awaits awaited s => (done.1, .awaits awaited (.inl s))
    | .yields message s => (done.1, .yields message (.inr s))
    | .ends outcome => (done.1, .ends outcome)

@[simp] theorem relay_go_fst (done : World × Rest State Await Message Error Result) :
    (relay.go done).1 = done.1 := by
  obtain ⟨world, rest⟩ := done
  cases rest <;> rfl

/-- An exception is thrown in where a message was handed out. -/
def Abandons (c : Config World State Await Message Error Result)
    (l : Resumption World Answer Error) : Prop :=
  match c.position, l.input with
  | .rested (.yields _ _), .thrown _ => True
  | _, _ => False

instance (c : Config World State Await Message Error Result) (l : Resumption World Answer Error) :
    Decidable (Abandons c l) := by
  unfold Abandons
  split <;> infer_instance

/-- Code whose consumer ends with an exception that is thrown in where a message was handed out. -/
def abandoning (code : Code World State Await Answer Message Error Result)
    (c : Config World State Await Message Error Result) (l : Resumption World Answer Error) :
    Option (Config World State Await Message Error Result) :=
  match c.position, l.input with
  | .rested (.yields _ _), .thrown e =>
      some (settle c.shown (l.meanwhile c.world, .ends (.error e)))
  | _, _ => step code c l

theorem abandons_iff {l : Resumption World Answer Error} :
    Abandons c l ↔ ∃ message s e, c.position = .rested (.yields message s) ∧
      l.input = .thrown e := by
  constructor
  · intro abandons
    unfold Abandons at abandons
    split at abandons
    · rename_i message s e rests thrown
      exact ⟨message, s, e, rests, thrown⟩
    · exact abandons.elim
  · rintro ⟨message, s, e, rests, thrown⟩
    rw [Abandons, rests, thrown]
    trivial

theorem abandoning_of_not {l : Resumption World Answer Error} (keeps : ¬ Abandons c l) :
    abandoning code c l = step code c l := by
  unfold abandoning
  split
  · rename_i message s e rests thrown
    exact absurd (abandons_iff.mpr ⟨message, s, e, rests, thrown⟩) keeps
  · rfl

theorem abandoning_yields {l : Resumption World Answer Error} {message : Message} {s : State}
    {e : Error} (rests : c.position = .rested (.yields message s)) (thrown : l.input = .thrown e) :
    abandoning code c l = some (settle c.shown (l.meanwhile c.world, .ends (.error e))) := by
  rw [abandoning, rests, thrown]

/-- Code that is over is not resumed. -/
theorem abandoning_ends (shown : List (Await ⊕ Message)) (world : World)
    (outcome : Except Error Result) (l : Resumption World Answer Error) :
    abandoning code (settle shown (world, .ends outcome)) l = none := by
  obtain ⟨meanwhile, input⟩ := l
  cases input <;> rfl

/-! ## A loop over a bracket -/

section Loop

variable {enter : World → Saved × World} {exit : Saved → Except Error Result → World → World}
  {saved : Saved}

/-- The run of a bracket whose code was kept to its end or abandoned. A bracket that is abandoned
has not been left. -/
def cut (exit : Saved → Except Error Result → World → World) (saved : Saved) (kept : Prop)
    [Decidable kept] (c : Config World State Await Message Error Result) :
    Config World (Option Saved × State) Await Message Error Result :=
  within (if kept then exit else fun _ _ world => world) saved c

theorem cut_abandoned {kept : Prop} [Decidable kept] (abandoned : ¬ kept)
    (c : Config World State Await Message Error Result) :
    cut exit saved kept c = within (fun _ _ world => world) saved c :=
  congrArg (within · saved c) (if_neg abandoned)

theorem cut_congr {kept also : Prop} [Decidable kept] [Decidable also] (same : kept ↔ also) :
    (cut exit saved kept : Config World State Await Message Error Result → _) =
      cut exit saved also := by
  funext c
  simp only [cut, same]

theorem abandoning_within {l : Resumption World Answer Error} (abandons : Abandons c l) :
    abandoning (bracket enter exit code) (within exit saved c) l =
      (abandoning code c l).map (within (fun _ _ world => world) saved) := by
  obtain ⟨message, s, e, rests, thrown⟩ := abandons_iff.mp abandons
  obtain ⟨world, position, shown⟩ := c
  obtain rfl := rests
  rw [abandoning_yields rfl thrown, abandoning_yields rfl thrown]
  rfl

theorem abandons_within {l : Resumption World Answer Error} :
    Abandons (within exit saved c) l ↔ Abandons c l := by
  obtain ⟨world, position, shown⟩ := c
  obtain ⟨meanwhile, input⟩ := l
  cases position with
  | fresh s => exact Iff.rfl
  | rested rest => cases rest <;> cases input <;> exact Iff.rfl

theorem exec_cut (begun : ∀ s, c.position ≠ .fresh s) (ls : List (Resumption World Answer Error)) :
    exec (abandoning (bracket enter exit code)) (within exit saved c) ls =
      (exec (abandoning code) c ls).map
        (cut exit saved (EveryStep (step code) (fun c l => ¬ Abandons c l) c ls)) := by
  induction ls generalizing c with
  | nil => exact congrArg some (congrArg (within · saved c) (if_pos trivial).symm)
  | cons l ls ih =>
      by_cases abandons : Abandons c l
      · obtain ⟨message, s, e, rests, thrown⟩ := abandons_iff.mp abandons
        rw [exec_cons, exec_cons, abandoning_within abandons, abandoning_yields rests thrown]
        cases ls with
        | nil => exact congrArg some (cut_abandoned (fun keeps => keeps.1 abandons) _).symm
        | cons l ls =>
            rw [Option.map_some, Option.bind_some, Option.bind_some, exec_cons, exec_cons,
              abandoning_ends]
            exact congrArg (Option.bind · _) (abandoning_ends ..)
      · rw [exec_cons, exec_cons, abandoning_of_not abandons,
          abandoning_of_not fun within => abandons (abandons_within.mp within),
          step_bracket enter exit saved begun]
        cases taken : step code c l with
        | none => rfl
        | some next =>
            have same : EveryStep (step code) (fun c l => ¬ Abandons c l) c (l :: ls) ↔
                EveryStep (step code) (fun c l => ¬ Abandons c l) next ls :=
              (everyStep_cons taken).trans (and_iff_right abandons)
            rw [cut_congr same]
            exact ih (begun_of_step taken)

/-- **A loop over a bracket** leaves the bracket exactly if it does not abandon it. -/
theorem exec_abandoning_bracket (enter : World → Saved × World)
    (exit : Saved → Except Error Result → World → World) (world : World) (s : State)
    (first : World → World) (ls : List (Resumption World Answer Error)) :
    exec (abandoning (bracket enter exit code)) ⟨world, .fresh (none, s), []⟩
        (⟨first, .next⟩ :: ls) =
      (exec (abandoning code) ⟨world, .fresh s, []⟩
        (⟨fun world => (enter (first world)).2, .next⟩ :: ls)).map
          (cut exit (enter (first world)).1 (EveryStep (step code) (fun c l => ¬ Abandons c l)
            ⟨world, .fresh s, []⟩ (⟨fun world => (enter (first world)).2, .next⟩ :: ls))) := by
  have same : EveryStep (step code) (fun c l => ¬ Abandons c l)
      ⟨world, .fresh s, []⟩ (⟨fun world => (enter (first world)).2, .next⟩ :: ls) ↔
        EveryStep (step code) (fun c l => ¬ Abandons c l)
          (settle [] (code s .next (enter (first world)).2)) ls :=
    (everyStep_cons rfl).trans (and_iff_right id)
  rw [exec_cons, exec_cons]
  refine Eq.trans (congrArg (Option.bind · _) (congrArg some (settle_leave ..))) ?_
  rw [cut_congr same]
  exact exec_cut (fun s fresh => by cases fresh) ls

end Loop

end Coroutines
