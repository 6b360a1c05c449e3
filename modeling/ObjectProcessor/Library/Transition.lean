import Mathlib.Data.List.Induction
import Mathlib.Logic.Relation

/-!
# Runs of a partial transition system

A step either yields the next state or is refused.  A run is a list of actions
none of which is refused; whatever holds initially and is preserved by every
step holds at the end of every run.
-/

namespace ObjectProcessor.Library

variable {State Action : Type*}

/-- Perform the listed actions in order; `none` as soon as one is refused. -/
def runActions (step : State → Action → Option State) :
    State → List Action → Option State
  | state, [] => some state
  | state, action :: rest =>
      (step state action).bind fun next => runActions step next rest

/-- The second state can be reached from the first by some run. -/
def Reaches (step : State → Action → Option State) (first last : State) : Prop :=
  ∃ actions, runActions step first actions = some last

/-- The property holds in every state the run goes through. -/
def Throughout (step : State → Action → Option State) (P : State → Prop) (first : State)
    (actions : List Action) : Prop :=
  ∀ front rest state, actions = front ++ rest → runActions step first front = some state → P state

/-- Every step of the run is taken in a state in which the guard admits it. -/
def EveryStep (step : State → Action → Option State) (guard : State → Action → Prop)
    (first : State) (actions : List Action) : Prop :=
  ∀ front action rest state, actions = front ++ action :: rest →
    runActions step first front = some state → guard state action

section Runs

variable {step : State → Action → Option State}

@[simp]
theorem runActions_nil (state : State) : runActions step state [] = some state := rfl

theorem runActions_cons (state : State) (action : Action) (rest : List Action) :
    runActions step state (action :: rest) =
      (step state action).bind fun next => runActions step next rest := rfl

theorem runActions_append (state : State) (front rest : List Action) :
    runActions step state (front ++ rest) =
      (runActions step state front).bind fun middle => runActions step middle rest := by
  induction front generalizing state with
  | nil => rfl
  | cons action front ih =>
      simp only [List.cons_append, runActions_cons]
      cases step state action with
      | none => rfl
      | some next => exact ih next

@[simp]
theorem runActions_singleton (state : State) (action : Action) :
    runActions step state [action] = step state action := by
  rw [runActions_cons]
  cases step state action <;> rfl

/-- Appending one accepted action extends a run by one step. -/
theorem runActions_snoc {first middle last : State} {actions : List Action}
    {action : Action} (run : runActions step first actions = some middle)
    (edge : step middle action = some last) :
    runActions step first (actions ++ [action]) = some last := by
  rw [runActions_append, run]
  simpa using edge

/-- The last step of a run that ends with the given action. -/
theorem runActions_snoc_inv {first last : State} {actions : List Action}
    {action : Action} (run : runActions step first (actions ++ [action]) = some last) :
    ∃ middle, runActions step first actions = some middle ∧
      step middle action = some last := by
  rw [runActions_append] at run
  obtain ⟨middle, front, edge⟩ := Option.bind_eq_some_iff.mp run
  exact ⟨middle, front, by simpa using edge⟩

theorem Reaches.refl (state : State) : Reaches step state state := ⟨[], rfl⟩

theorem Reaches.tail {first middle last : State} {action : Action}
    (reach : Reaches step first middle) (edge : step middle action = some last) :
    Reaches step first last := by
  obtain ⟨actions, run⟩ := reach
  exact ⟨actions ++ [action], runActions_snoc run edge⟩

theorem Reaches.single {first last : State} {action : Action}
    (edge : step first action = some last) : Reaches step first last :=
  (Reaches.refl first).tail edge

theorem Reaches.trans {first middle last : State} (left : Reaches step first middle)
    (right : Reaches step middle last) : Reaches step first last := by
  obtain ⟨front, frontRun⟩ := left
  obtain ⟨rest, restRun⟩ := right
  exact ⟨front ++ rest, by rw [runActions_append, frontRun]; exact restRun⟩

/-- Induction along a run, one step at the end at a time. -/
theorem Reaches.induction {motive : State → Prop} {first last : State}
    (reach : Reaches step first last) (start : motive first)
    (next : ∀ middle action after, Reaches step first middle → motive middle →
      step middle action = some after → motive after) : motive last := by
  obtain ⟨actions, run⟩ := reach
  induction actions using List.reverseRecOn generalizing last with
  | nil =>
      cases run
      exact start
  | append_singleton actions action ih =>
      obtain ⟨middle, front, edge⟩ := runActions_snoc_inv run
      exact next middle action last ⟨actions, front⟩ (ih front) edge

/-- An invariant of every step is an invariant of every run. -/
theorem Reaches.invariant {Inv : State → Prop} {first last : State}
    (reach : Reaches step first last) (start : Inv first)
    (preserved : ∀ state action next, Inv state → step state action = some next →
      Inv next) : Inv last :=
  reach.induction start fun middle action after _ holds edge =>
    preserved middle action after holds edge

/-- When every step from a state of the invariant is a move of an abstract system, every
run is a sequence of its moves. -/
theorem Reaches.simulates {Spec : Type*} {Moves : Spec → Spec → Prop} {view : State → Spec}
    {Inv : State → Prop} {first last : State} (reach : Reaches step first last)
    (start : Inv first)
    (preserved : ∀ state action next, Inv state → step state action = some next → Inv next)
    (moves : ∀ state action next, Inv state → step state action = some next →
      Moves (view state) (view next)) :
    Relation.ReflTransGen Moves (view first) (view last) := by
  refine reach.induction (motive := fun last => Relation.ReflTransGen Moves (view first)
    (view last)) .refl ?_
  intro middle action after reached simulated accepted
  exact simulated.tail (moves middle action after (reached.invariant start preserved) accepted)

theorem EveryStep.imp {guard guard' : State → Action → Prop} {first : State}
    {actions : List Action} (admitted : EveryStep step guard first actions)
    (implies : ∀ state, ∀ action ∈ actions, Reaches step first state → guard state action →
      guard' state action) : EveryStep step guard' first actions := by
  rintro front action rest state rfl reached
  have admits := admitted front action rest state rfl reached
  exact implies state action (by simp) ⟨front, reached⟩ admits

theorem everyStep_nil {guard : State → Action → Prop} (first : State) :
    EveryStep step guard first [] := by
  intro front action rest state split
  cases front <;> cases split

theorem everyStep_cons {guard : State → Action → Prop} {first : State} {action : Action}
    {rest : List Action} : EveryStep step guard first (action :: rest) ↔
      guard first action ∧
        ∀ next, step first action = some next → EveryStep step guard next rest := by
  constructor
  · intro admitted
    refine ⟨admitted [] action rest first rfl rfl, ?_⟩
    rintro next edge front other back state rfl reached
    refine admitted (action :: front) other back state rfl ?_
    rw [runActions_cons, edge]
    exact reached
  · rintro ⟨head, tail⟩ front other back state split reached
    cases front with
    | nil =>
        cases split
        cases reached
        exact head
    | cons start front =>
        cases split
        rw [runActions_cons] at reached
        obtain ⟨next, edge, ended⟩ := Option.bind_eq_some_iff.mp reached
        exact tail next edge front other back state rfl ended

/-- A guard that can be decided can be decided along a run. -/
instance decidableEveryStep {guard : State → Action → Prop}
    [decided : ∀ state action, Decidable (guard state action)] :
    (first : State) → (actions : List Action) → Decidable (EveryStep step guard first actions)
  | first, [] => isTrue (everyStep_nil first)
  | first, action :: rest =>
      match edge : step first action with
      | none => decidable_of_iff (guard first action) (by simp [everyStep_cons, edge])
      | some next =>
          have : Decidable (EveryStep step guard next rest) := decidableEveryStep next rest
          decidable_of_iff (guard first action ∧ EveryStep step guard next rest)
            (by simp [everyStep_cons, edge])

/-- A property every admitted step keeps holds throughout a run of admitted steps. -/
theorem throughout_of_everyStep {P : State → Prop} {guard : State → Action → Prop}
    {first : State} {actions : List Action} (start : P first)
    (keeps : ∀ state action next, Reaches step first state → P state → guard state action →
      step state action = some next → P next)
    (admitted : EveryStep step guard first actions) : Throughout step P first actions := by
  intro front
  induction front using List.reverseRecOn with
  | nil =>
      rintro rest state _ reached
      cases reached
      exact start
  | append_singleton front action ih =>
      rintro rest state split reached
      obtain ⟨middle, before, edge⟩ := runActions_snoc_inv reached
      have holds : P middle := ih (action :: rest) middle (by simpa using split) before
      refine keeps middle action state ⟨front, before⟩ holds ?_ edge
      exact admitted front action rest middle (by simpa using split) before

/-- What follows from a property in every state a run can reach. -/
theorem Throughout.imp {P Q : State → Prop} {first : State} {actions : List Action}
    (holds : Throughout step P first actions)
    (implies : ∀ state, Reaches step first state → P state → Q state) :
    Throughout step Q first actions := by
  intro front rest state split reached
  exact implies state ⟨front, reached⟩ (holds front rest state split reached)

/-- When a step keeps the property exactly if the guard admits it, a run keeps the
property throughout exactly if the guard admits all of its steps. -/
theorem throughout_iff_everyStep {P : State → Prop} {guard : State → Action → Prop}
    {first last : State} {actions : List Action} (start : P first)
    (keeps : ∀ state action next, Reaches step first state → P state →
      step state action = some next → (P next ↔ guard state action))
    (run : runActions step first actions = some last) :
    Throughout step P first actions ↔ EveryStep step guard first actions := by
  constructor
  · rintro holds front action rest state rfl reached
    have whole := run
    rw [runActions_append, reached, Option.bind_some, runActions_cons] at whole
    obtain ⟨next, edge, _⟩ := Option.bind_eq_some_iff.mp whole
    refine (keeps state action next ⟨front, reached⟩ (holds front _ state rfl reached) edge).mp ?_
    exact holds (front ++ [action]) rest next (by simp) (runActions_snoc reached edge)
  · intro admitted
    refine throughout_of_everyStep start ?_ admitted
    intro state action next reached holds admits accepted
    exact (keeps state action next reached holds accepted).mpr admits

end Runs

end ObjectProcessor.Library
