import DynamicSwap.Library.Machine

/-!
# The moments of a run

What a run has passed through is a statement about its prefixes.  The first rule
follows an invariant that speaks of the past, the second finds the step at which
a property was lost.
-/

namespace DynamicSwap.Library.Machine

variable {State Action : Type*} {machine : Machine State Action}

/-- A state that the run goes through, with the actions still ahead of it. -/
def Moment (machine : Machine State Action) (start : State) (actions : List Action)
    (moment : State) (ahead : List Action) : Prop :=
  ∃ past, actions = past ++ ahead ∧ machine.run start past = some moment

variable {start final moment : State} {actions ahead : List Action}

theorem Moment.here (hrun : machine.run start actions = some final) :
    machine.Moment start actions final [] :=
  ⟨actions, (List.append_nil actions).symm, hrun⟩

theorem Moment.append (hmoment : machine.Moment start actions moment ahead)
    (more : List Action) :
    machine.Moment start (actions ++ more) moment (ahead ++ more) := by
  obtain ⟨past, rfl, hpast⟩ := hmoment
  exact ⟨past, List.append_assoc past ahead more, hpast⟩

theorem Moment.run (hmoment : machine.Moment start actions moment ahead)
    (hrun : machine.run start actions = some final) :
    machine.run moment ahead = some final := by
  obtain ⟨past, rfl, hpast⟩ := hmoment
  obtain ⟨middle, hmiddle, hrest⟩ := run_append.mp hrun
  cases hpast.symm.trans hmiddle
  exact hrest

theorem Reachable.run (hreachable : machine.Reachable start)
    (hrun : machine.run start actions = some final) : machine.Reachable final :=
  run_induction machine.Reachable
    (fun hreachable hstep => .step hreachable trivial hstep) hreachable hrun

/-- What a step keeps of the run so far holds at the end of every run. -/
theorem run_history (Inv : List Action → State → Prop) (hstart : Inv [] start)
    (hkeep : ∀ {past : List Action} {state next : State} {action : Action},
      machine.run start past = some state → Inv past state →
        machine.step state action = some next → Inv (past ++ [action]) next)
    (hrun : machine.run start actions = some final) : Inv actions final := by
  induction actions using List.reverseRecOn generalizing final with
  | nil =>
      rw [run_nil, Option.some.injEq] at hrun
      exact hrun ▸ hstart
  | append_singleton past action ih =>
      obtain ⟨state, hpast, hlast⟩ := run_append.mp hrun
      obtain ⟨next, hstep, hnext⟩ := run_cons.mp hlast
      rw [run_nil, Option.some.injEq] at hnext
      exact hnext ▸ hkeep hpast (ih hpast) hstep

/-- A property that held and no longer does was lost by one of the steps. -/
theorem exists_losing_step (Holds : State → Prop) (hholds : Holds start)
    (hrun : machine.run start actions = some final) (hlost : ¬ Holds final) :
    ∃ before action after rest, machine.Moment start actions before (action :: rest) ∧
      machine.step before action = some after ∧ Holds before ∧ ¬ Holds after := by
  induction actions generalizing start with
  | nil =>
      rw [run_nil, Option.some.injEq] at hrun
      exact absurd (hrun ▸ hholds) hlost
  | cons action actions ih =>
      obtain ⟨next, hstep, hrest⟩ := run_cons.mp hrun
      by_cases hnext : Holds next
      · obtain ⟨before, losing, after, rest, ⟨past, hpast, hbefore⟩, hloses⟩ := ih hnext hrest
        refine ⟨before, losing, after, rest, ⟨action :: past, ?_, ?_⟩, hloses⟩
        · rw [hpast, List.cons_append]
        · exact run_cons.mpr ⟨next, hstep, hbefore⟩
      · exact ⟨start, action, next, actions, ⟨[], rfl, rfl⟩, hstep, hholds, hnext⟩

end DynamicSwap.Library.Machine
