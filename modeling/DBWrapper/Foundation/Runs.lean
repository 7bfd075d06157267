/-!
# Runs of a partial step function

A system is a step function `State → Action → Option State`; `none` means
that the action is not enabled.  A run is the fold of a list of actions, so
it can be evaluated on a concrete trace, and the induction over its length is
packaged here once: an invariant of one step is an invariant of every run.

The guarded form covers statements about those runs only whose steps all
meet a condition on the state before the step and on the action.
-/

namespace Foundation

universe u v
variable {State : Type u} {Action : Type v}

/-- Perform the actions from left to right; `none` as soon as one of them is
not enabled. -/
def run (step : State → Action → Option State) :
    State → List Action → Option State
  | state, [] => some state
  | state, action :: actions =>
      match step state action with
      | none => none
      | some next => run step next actions

/-- Every step of the run starts in a state and performs an action that meet
`guard`.  Steps behind a disabled action are not looked at. -/
def AllSteps (step : State → Action → Option State)
    (guard : State → Action → Prop) : State → List Action → Prop
  | _, [] => True
  | state, action :: actions =>
      guard state action ∧
        ∀ next, step state action = some next →
          AllSteps step guard next actions

@[simp] theorem run_nil
    (step : State → Action → Option State) (state : State) :
    run step state [] = some state := rfl

theorem run_cons_eq_some_iff
    {step : State → Action → Option State} {state final : State}
    {action : Action} {actions : List Action} :
    run step state (action :: actions) = some final ↔
      ∃ next, step state action = some next ∧
        run step next actions = some final := by
  cases result : step state action with
  | none => simp [run, result]
  | some next => simp [run, result]

theorem run_append_eq_some_iff
    {step : State → Action → Option State} {state final : State}
    {front back : List Action} :
    run step state (front ++ back) = some final ↔
      ∃ middle, run step state front = some middle ∧
        run step middle back = some final := by
  induction front generalizing state with
  | nil => simp
  | cons action front induction =>
      simp only [List.cons_append, run_cons_eq_some_iff, induction]
      constructor
      · intro holds
        obtain ⟨next, stepped, middle, firstPart, secondPart⟩ := holds
        exact ⟨middle, ⟨next, stepped, firstPart⟩, secondPart⟩
      · intro holds
        obtain ⟨middle, ⟨next, stepped, firstPart⟩, secondPart⟩ := holds
        exact ⟨next, stepped, middle, firstPart, secondPart⟩

theorem run_append_singleton
    {step : State → Action → Option State} {start state next : State}
    {action : Action} {actions : List Action}
    (ran : run step start actions = some state)
    (stepped : step state action = some next) :
    run step start (actions ++ [action]) = some next :=
  run_append_eq_some_iff.mpr
    ⟨state, ran, run_cons_eq_some_iff.mpr ⟨next, stepped, rfl⟩⟩

/-- A system that can do more has all the runs. -/
theorem run_mono
    {step other : State → Action → Option State}
    (each : ∀ state action next, step state action = some next →
      other state action = some next)
    {start final : State} {actions : List Action}
    (ran : run step start actions = some final) :
    run other start actions = some final := by
  induction actions generalizing start with
  | nil => exact ran
  | cons action actions induction =>
      obtain ⟨next, stepped, rest⟩ := run_cons_eq_some_iff.mp ran
      exact run_cons_eq_some_iff.mpr
        ⟨next, each start action next stepped, induction rest⟩

/-- An invariant that every guarded step preserves holds at the end of every
run whose steps all meet the guard. -/
theorem run_invariant_of_allSteps
    {step : State → Action → Option State}
    {guard : State → Action → Prop} {Invariant : State → Prop}
    (preserved : ∀ state action next, Invariant state → guard state action →
      step state action = some next → Invariant next)
    {start final : State} {actions : List Action}
    (initial : Invariant start)
    (guarded : AllSteps step guard start actions)
    (ran : run step start actions = some final) :
    Invariant final := by
  induction actions generalizing start with
  | nil =>
      cases ran
      exact initial
  | cons action actions induction =>
      obtain ⟨next, stepped, rest⟩ := run_cons_eq_some_iff.mp ran
      exact induction
        (preserved start action next initial guarded.1 stepped)
        (guarded.2 next stepped) rest

theorem allSteps_cons
    {step : State → Action → Option State}
    {guard : State → Action → Prop} {state next : State} {action : Action}
    {actions : List Action} (here : guard state action)
    (stepped : step state action = some next)
    (later : AllSteps step guard next actions) :
    AllSteps step guard state (action :: actions) := by
  refine ⟨here, ?_⟩
  intro other reached
  rw [stepped] at reached
  cases reached
  exact later

instance decidableAllSteps
    {step : State → Action → Option State}
    {guard : State → Action → Prop}
    [each : ∀ state action, Decidable (guard state action)] :
    ∀ state actions, Decidable (AllSteps step guard state actions)
  | _, [] => isTrue trivial
  | state, action :: actions =>
      match each state action with
      | isFalse here => isFalse fun both => here both.1
      | isTrue here =>
          match found : step state action with
          | none =>
              isTrue
                ⟨here, fun next stepped => by
                  rw [found] at stepped
                  cases stepped⟩
          | some next =>
              match decidableAllSteps next actions with
              | isFalse later => isFalse fun both => later (both.2 next found)
              | isTrue later => isTrue (allSteps_cons here found later)

theorem allSteps_true
    (step : State → Action → Option State) (start : State)
    (actions : List Action) :
    AllSteps step (fun _ _ => True) start actions := by
  induction actions generalizing start with
  | nil => trivial
  | cons action actions induction =>
      exact ⟨trivial, fun next _ => induction next⟩

theorem AllSteps.and
    {step : State → Action → Option State}
    {guard other : State → Action → Prop} {start : State}
    {actions : List Action} (left : AllSteps step guard start actions)
    (right : AllSteps step other start actions) :
    AllSteps step (fun state action => guard state action ∧ other state action)
      start actions := by
  induction actions generalizing start with
  | nil => trivial
  | cons action actions induction =>
      refine ⟨⟨left.1, right.1⟩, ?_⟩
      intro next stepped
      exact induction (left.2 next stepped) (right.2 next stepped)

/-- Every step of a run performs one of its actions. -/
theorem allSteps_mem_of_subset
    (step : State → Action → Option State) (start : State)
    {actions listed : List Action} (subset : actions ⊆ listed) :
    AllSteps step (fun _ action => action ∈ listed) start actions := by
  induction actions generalizing start with
  | nil => trivial
  | cons action actions induction =>
      obtain ⟨here, later⟩ := List.cons_subset.mp subset
      exact ⟨here, fun next _ => induction next later⟩

theorem allSteps_mem
    (step : State → Action → Option State) (start : State)
    (actions : List Action) :
    AllSteps step (fun _ action => action ∈ actions) start actions :=
  allSteps_mem_of_subset step start (List.Subset.refl actions)

/-- An invariant that the actions of the run preserve holds at its end. -/
theorem run_invariant_of_mem
    {step : State → Action → Option State} {Invariant : State → Prop}
    {actions : List Action}
    (preserved : ∀ state action next, Invariant state → action ∈ actions →
      step state action = some next → Invariant next)
    {start final : State} (initial : Invariant start)
    (ran : run step start actions = some final) :
    Invariant final :=
  run_invariant_of_allSteps preserved initial
    (allSteps_mem step start actions) ran

/-- An invariant that every step preserves holds at the end of every run. -/
theorem run_invariant
    {step : State → Action → Option State} {Invariant : State → Prop}
    (preserved : ∀ state action next, Invariant state →
      step state action = some next → Invariant next)
    {start final : State} {actions : List Action}
    (initial : Invariant start)
    (ran : run step start actions = some final) :
    Invariant final :=
  run_invariant_of_allSteps
    (fun state action next holds _ stepped =>
      preserved state action next holds stepped)
    initial (allSteps_true step start actions) ran

/-- If every step keeps a property exactly when it meets the guard, a run
keeps it exactly when all its steps do. -/
theorem run_iff_allSteps
    {step : State → Action → Option State}
    {guard : State → Action → Prop} {Invariant Good : State → Prop}
    (preserved : ∀ state action next, Invariant state →
      step state action = some next → Invariant next)
    (exactly : ∀ state action next, Invariant state →
      step state action = some next →
        (Good next ↔ Good state ∧ guard state action))
    {start final : State} {actions : List Action}
    (initial : Invariant start)
    (ran : run step start actions = some final) :
    Good final ↔ Good start ∧ AllSteps step guard start actions := by
  induction actions generalizing start with
  | nil =>
      cases ran
      simp [AllSteps]
  | cons action actions induction =>
      obtain ⟨next, stepped, rest⟩ := run_cons_eq_some_iff.mp ran
      have later := induction (preserved start action next initial stepped) rest
      rw [later, exactly start action next initial stepped, and_assoc]
      simp [AllSteps, stepped]

/-- Guards that agree on the steps of a run. -/
theorem allSteps_congr
    {step : State → Action → Option State}
    {guard other : State → Action → Prop} {Invariant : State → Prop}
    (preserved : ∀ state action next, Invariant state →
      step state action = some next → Invariant next)
    (agree : ∀ state action next, Invariant state →
      step state action = some next → (guard state action ↔ other state action))
    {start final : State} {actions : List Action}
    (initial : Invariant start)
    (ran : run step start actions = some final) :
    AllSteps step guard start actions ↔ AllSteps step other start actions := by
  induction actions generalizing start with
  | nil => exact Iff.rfl
  | cons action actions induction =>
      obtain ⟨next, stepped, rest⟩ := run_cons_eq_some_iff.mp ran
      have later := induction (preserved start action next initial stepped) rest
      simp only [AllSteps, stepped, Option.some.injEq, forall_eq']
      rw [agree start action next initial stepped, later]

/-- A guard on the actions alone. -/
theorem allSteps_iff_forall_mem
    {step : State → Action → Option State} {guard : Action → Prop}
    {start final : State} {actions : List Action}
    (ran : run step start actions = some final) :
    AllSteps step (fun _ action => guard action) start actions ↔
      ∀ action ∈ actions, guard action := by
  induction actions generalizing start with
  | nil => simp [AllSteps]
  | cons action actions induction =>
      obtain ⟨next, stepped, rest⟩ := run_cons_eq_some_iff.mp ran
      simp only [AllSteps, stepped, Option.some.injEq, forall_eq',
        List.forall_mem_cons]
      rw [induction rest]

/-- The states that a run passes through, its first and its last one
included. -/
def Visits (step : State → Action → Option State) (start : State)
    (actions : List Action) (state : State) : Prop :=
  ∃ before after, actions = before ++ after ∧
    run step start before = some state

theorem visits_start
    (step : State → Action → Option State) (start : State)
    (actions : List Action) : Visits step start actions start :=
  ⟨[], actions, rfl, rfl⟩

theorem visits_of_run
    {step : State → Action → Option State} {start final : State}
    {actions : List Action} (ran : run step start actions = some final) :
    Visits step start actions final :=
  ⟨actions, [], (List.append_nil actions).symm, ran⟩

theorem Visits.cons
    {step : State → Action → Option State} {start next state : State}
    {action : Action} {actions : List Action}
    (stepped : step start action = some next)
    (later : Visits step next actions state) :
    Visits step start (action :: actions) state := by
  obtain ⟨before, after, rfl, reached⟩ := later
  exact ⟨action :: before, after, rfl,
    run_cons_eq_some_iff.mpr ⟨next, stepped, reached⟩⟩

theorem visits_cons_iff
    {step : State → Action → Option State} {start next state : State}
    {action : Action} {actions : List Action}
    (stepped : step start action = some next) :
    Visits step start (action :: actions) state ↔
      state = start ∨ Visits step next actions state := by
  constructor
  · intro visits
    obtain ⟨before, after, whole, reached⟩ := visits
    cases before with
    | nil =>
        cases reached
        exact .inl rfl
    | cons first before =>
        obtain ⟨rfl, rfl⟩ := List.cons.inj whole
        obtain ⟨other, firstStep, rest⟩ := run_cons_eq_some_iff.mp reached
        rw [stepped] at firstStep
        cases firstStep
        exact .inr ⟨before, after, rfl, rest⟩
  · intro visits
    rcases visits with rfl | later
    · exact visits_start step _ _
    · exact later.cons stepped

theorem allSteps_of_visits
    {step : State → Action → Option State}
    {guard : State → Action → Prop} {start final : State}
    {actions : List Action}
    (meets : ∀ state action next, action ∈ actions →
      Visits step start actions state → Visits step start actions next →
        step state action = some next → guard state action)
    (ran : run step start actions = some final) :
    AllSteps step guard start actions := by
  induction actions generalizing start with
  | nil => trivial
  | cons action actions induction =>
      obtain ⟨next, stepped, rest⟩ := run_cons_eq_some_iff.mp ran
      have here := meets start action next List.mem_cons_self
        (visits_start step _ _) ((visits_start step _ _).cons stepped) stepped
      apply allSteps_cons here stepped
      apply induction _ rest
      intro state action after listed visits visitsAfter
      exact meets state action after (List.mem_cons_of_mem _ listed)
        (visits.cons stepped) (visitsAfter.cons stepped)

/-- An invariant of the guarded steps holds in every state that a guarded run
visits; whether a step preserves it may depend on where the run leads. -/
theorem visits_invariant_of_allSteps
    {step : State → Action → Option State}
    {guard : State → Action → Prop} {Invariant : State → Prop}
    {start final : State} {actions : List Action}
    (preserved : ∀ state action next, Visits step start actions next →
      Invariant state → guard state action → step state action = some next →
        Invariant next)
    (initial : Invariant start)
    (guarded : AllSteps step guard start actions)
    (ran : run step start actions = some final)
    {state : State} (visits : Visits step start actions state) :
    Invariant state := by
  induction actions generalizing start with
  | nil =>
      obtain ⟨before, after, whole, reached⟩ := visits
      obtain ⟨rfl, _⟩ := List.append_eq_nil_iff.mp whole.symm
      cases reached
      exact initial
  | cons action actions induction =>
      obtain ⟨next, stepped, rest⟩ := run_cons_eq_some_iff.mp ran
      rcases (visits_cons_iff stepped).mp visits with rfl | later
      · exact initial
      · have goodNext := preserved start action next
          ((visits_start step _ _).cons stepped) initial guarded.1 stepped
        apply induction _ goodNext (guarded.2 next stepped) rest later
        intro state action after visitsAfter
        exact preserved state action after (visitsAfter.cons stepped)

/-- All steps meet the guard exactly if it holds wherever the run performs an
action. -/
theorem allSteps_iff
    {step : State → Action → Option State}
    {guard : State → Action → Prop} {start : State} {actions : List Action} :
    AllSteps step guard start actions ↔
      ∀ front action back state, actions = front ++ action :: back →
        run step start front = some state → guard state action := by
  induction actions generalizing start with
  | nil => simp [AllSteps]
  | cons first actions induction =>
      constructor
      · intro guarded front action back state whole reached
        cases front with
        | nil =>
            obtain ⟨rfl, rfl⟩ := List.cons.inj whole
            cases reached
            exact guarded.1
        | cons other front =>
            obtain ⟨rfl, rfl⟩ := List.cons.inj whole
            obtain ⟨next, stepped, rest⟩ := run_cons_eq_some_iff.mp reached
            exact induction.mp (guarded.2 next stepped) front action back state
              rfl rest
      · intro meets
        refine ⟨meets [] first actions start rfl rfl, ?_⟩
        intro next stepped
        apply induction.mpr
        intro front action back state whole reached
        apply meets (first :: front) action back state
        · rw [whole, List.cons_append]
        · exact run_cons_eq_some_iff.mpr ⟨next, stepped, reached⟩

/-- The steps of a run, each as its action and the state before it. -/
def trace (step : State → Action → Option State) :
    State → List Action → List (State × Action)
  | _, [] => []
  | state, action :: actions =>
      (state, action) ::
        match step state action with
        | none => []
        | some next => trace step next actions

theorem trace_append_singleton
    {step : State → Action → Option State} {start state : State}
    {front : List Action} (action : Action)
    (reached : run step start front = some state) :
    trace step start (front ++ [action]) =
      trace step start front ++ [(state, action)] := by
  induction front generalizing start with
  | nil =>
      cases reached
      simp only [List.nil_append, trace]
      split <;> rfl
  | cons first front induction =>
      obtain ⟨next, stepped, rest⟩ := run_cons_eq_some_iff.mp reached
      simp only [List.cons_append, trace, stepped]
      rw [induction rest]

end Foundation
