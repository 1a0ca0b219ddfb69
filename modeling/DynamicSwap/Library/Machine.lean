import Mathlib

/-!
# Machines with computed steps

A machine is a state type, an action type and a partial step function: an
action resolves every choice of the step, and `none` means that the action is
not enabled.  Runs are therefore computed, and every statement about all runs
is proved from what one step preserves.
-/

namespace DynamicSwap.Library

variable {State Action : Type*}

/-- A transition system whose steps are computed from the action. -/
structure Machine (State Action : Type*) where
  initial : State → Prop
  step : State → Action → Option State

namespace Machine

variable (machine : Machine State Action)

/-- Execute the actions from left to right; `none` as soon as one of them is
not enabled. -/
def run : State → List Action → Option State
  | state, [] => some state
  | state, action :: actions =>
      match machine.step state action with
      | none => none
      | some next => run next actions

/-- States reached by runs all of whose steps satisfy `allowed`. -/
inductive ReachableUnder (allowed : State → Action → Prop) : State → Prop
  | initial {state : State} (hinitial : machine.initial state) :
      ReachableUnder allowed state
  | step {state next : State} {action : Action}
      (hreachable : ReachableUnder allowed state)
      (hallowed : allowed state action)
      (hstep : machine.step state action = some next) :
      ReachableUnder allowed next

/-- States reached by arbitrary runs. -/
def Reachable : State → Prop :=
  machine.ReachableUnder fun _ _ => True

variable {machine}

@[simp]
theorem run_nil (state : State) : machine.run state [] = some state := rfl

theorem run_cons {state final : State} {action : Action}
    {actions : List Action} :
    machine.run state (action :: actions) = some final ↔
      ∃ next, machine.step state action = some next ∧
        machine.run next actions = some final := by
  rw [run]
  cases machine.step state action with
  | none => simp
  | some next => simp

theorem run_append {state final : State} {first second : List Action} :
    machine.run state (first ++ second) = some final ↔
      ∃ middle, machine.run state first = some middle ∧
        machine.run middle second = some final := by
  induction first generalizing state with
  | nil => simp
  | cons action first ih =>
      rw [List.cons_append, run_cons]
      simp only [ih, run_cons]
      grind

/-- A predicate that every step keeps holds after every run. -/
theorem run_induction (Inv : State → Prop)
    (hkeep : ∀ {state next : State} {action : Action},
      Inv state → machine.step state action = some next → Inv next)
    {state final : State} {actions : List Action}
    (hinv : Inv state) (hrun : machine.run state actions = some final) :
    Inv final := by
  induction actions generalizing state with
  | nil =>
      rw [run_nil, Option.some.injEq] at hrun
      exact hrun ▸ hinv
  | cons action actions ih =>
      obtain ⟨next, hstep, hrest⟩ := run_cons.mp hrun
      exact ih (hkeep hinv hstep) hrest

/-- A measure that every step lowers, from states with an invariant, bounds
the length of every run. -/
theorem length_le_of_run (Inv : State → Prop) (measure : State → ℕ)
    (hkeep : ∀ {state next : State} {action : Action},
      Inv state → machine.step state action = some next → Inv next)
    (hlower : ∀ {state next : State} {action : Action}, Inv state →
      machine.step state action = some next → measure next < measure state)
    {state final : State} {actions : List Action}
    (hinv : Inv state) (hrun : machine.run state actions = some final) :
    actions.length + measure final ≤ measure state := by
  induction actions generalizing state with
  | nil =>
      rw [run_nil, Option.some.injEq] at hrun
      simp [hrun]
  | cons action actions ih =>
      obtain ⟨next, hstep, hrest⟩ := run_cons.mp hrun
      have hnext := ih (hkeep hinv hstep) hrest
      have hdrop := hlower hinv hstep
      rw [List.length_cons]
      omega

namespace ReachableUnder

variable {allowed : State → Action → Prop}

/-- The invariant rule: what holds initially and is kept by every allowed
step holds in every state reached. -/
theorem invariant (Inv : State → Prop)
    (hinitial : ∀ {state : State}, machine.initial state → Inv state)
    (hkeep : ∀ {state next : State} {action : Action},
      Inv state → allowed state action →
        machine.step state action = some next → Inv next)
    {state : State} (hreachable : machine.ReachableUnder allowed state) :
    Inv state := by
  induction hreachable with
  | initial hstart => exact hinitial hstart
  | step _ hallowed hstep ih => exact hkeep ih hallowed hstep

theorem mono {weaker : State → Action → Prop}
    (hweaken : ∀ {state : State} {action : Action},
      allowed state action → weaker state action)
    {state : State} (hreachable : machine.ReachableUnder allowed state) :
    machine.ReachableUnder weaker state := by
  induction hreachable with
  | initial hstart => exact .initial hstart
  | step _ hallowed hstep ih => exact .step ih (hweaken hallowed) hstep

end ReachableUnder

/-- Decide along a run that every step is allowed. -/
def runAllowed (machine : Machine State Action) (allowed : State → Action → Bool) :
    State → List Action → Bool
  | _, [] => true
  | state, action :: actions =>
      allowed state action &&
        match machine.step state action with
        | none => true
        | some next => runAllowed machine allowed next actions

theorem ReachableUnder.of_run {allowed : State → Action → Prop}
    {check : State → Action → Bool}
    (hcheck : ∀ {state : State} {action : Action},
      check state action = true → allowed state action)
    {state final : State} {actions : List Action}
    (hreachable : machine.ReachableUnder allowed state)
    (hrun : machine.run state actions = some final)
    (hallowed : machine.runAllowed check state actions = true) :
    machine.ReachableUnder allowed final := by
  induction actions generalizing state with
  | nil =>
      rw [run_nil, Option.some.injEq] at hrun
      exact hrun ▸ hreachable
  | cons action actions ih =>
      obtain ⟨next, hstep, hrest⟩ := run_cons.mp hrun
      simp only [runAllowed, hstep, Bool.and_eq_true] at hallowed
      exact ih (.step hreachable (hcheck hallowed.1) hstep) hrest hallowed.2

theorem Reachable.of_run {state final : State} {actions : List Action}
    (hinitial : machine.initial state)
    (hrun : machine.run state actions = some final) :
    machine.Reachable final :=
  run_induction machine.Reachable
    (fun hreachable hstep => .step hreachable trivial hstep)
    (.initial hinitial) hrun

/-- The simulation rule: where each step of one machine is a run of another one, so
is every run.  `Shows` relates an action to the actions that it stands for. -/
theorem exists_run_of_simulation {Abstract Label : Type*} {abstract : Machine Abstract Label}
    (Related : State → Abstract → Prop) (Shows : Action → List Label → Prop)
    (hsimulate : ∀ {state next : State} {action : Action} {view : Abstract},
      Related state view → machine.step state action = some next →
        ∃ labels after, Shows action labels ∧ abstract.run view labels = some after ∧
          Related next after)
    {state final : State} {actions : List Action} {view : Abstract}
    (hrelated : Related state view) (hrun : machine.run state actions = some final) :
    ∃ blocks after, List.Forall₂ Shows actions blocks ∧
      abstract.run view blocks.flatten = some after ∧ Related final after := by
  induction actions generalizing state view with
  | nil =>
      rw [run_nil, Option.some.injEq] at hrun
      exact ⟨[], view, .nil, rfl, hrun ▸ hrelated⟩
  | cons action actions ih =>
      obtain ⟨next, hstep, hrest⟩ := run_cons.mp hrun
      obtain ⟨labels, middle, hshows, hlabels, hmiddle⟩ := hsimulate hrelated hstep
      obtain ⟨blocks, after, hall, hblocks, hafter⟩ := ih hmiddle hrest
      refine ⟨labels :: blocks, after, .cons hshows hall, ?_, hafter⟩
      rw [List.flatten_cons, run_append]
      exact ⟨middle, hlabels, hblocks⟩

end Machine

end DynamicSwap.Library
