import DynamicSwap.Collector.Launch

/-!
# The destructor and the GC masters

`~FarMemManager` waits until `pending_gcs_` is zero.  A master adds itself to
that counter in the function it runs, not where it is created, so the counter
misses the masters that have been created and not started.
-/

namespace DynamicSwap.Shutdown

open Launch (Master MasterPc LauncherPc)

/-- Position in `~FarMemManager`. -/
inductive DestructorPc
  | running
  | waiting
  | returned
  deriving DecidableEq

structure State where
  launch : Launch.State
  destructor : DestructorPc

/-- `enter` is the call of `stop_dynamic_pager`, `leaveWait` the last test of
`pending_gcs_`. -/
inductive Action
  | launch (action : Launch.Action)
  | enter
  | leaveWait
  deriving DecidableEq

/-- Allocations enter `launch_gc_master` until the destructor has returned: the
pager's go on while it waits. -/
def step (state : State) : Action → Option State
  | .launch (.launch thread) =>
      if state.destructor ≠ .returned then
        (Launch.step state.launch (.launch thread)).map
          fun launch => { state with launch := launch }
      else none
  | .launch action =>
      (Launch.step state.launch action).map fun launch => { state with launch := launch }
  | .enter =>
      if state.destructor = .running then some { state with destructor := .waiting }
      else none
  | .leaveWait =>
      if state.destructor = .waiting ∧ state.launch.pendingGcs = 0 then
        some { state with destructor := .returned }
      else none

def start : State where
  launch := Launch.start
  destructor := .running

def machine : Library.Machine State Action where
  initial state := state = start
  step := step

/-- The master has added itself to `pending_gcs_` and not taken itself back. -/
def Pending (state : Launch.State) (id : ℕ) : Prop :=
  ∃ master, state.masters id = some master ∧ master.pc ≠ .scheduled ∧
    master.pc ≠ .finished

/-- The wait may end: every created master has started and no thread is about
to create another one. -/
def AllStarted (state : Launch.State) : Prop :=
  (∀ thread, state.launchers thread = .outside) ∧
    ∀ id master, state.masters id = some master → master.pc ≠ .scheduled

/-- The wait ends only where every created master has started. -/
def WaitsForStarted (state : State) (action : Action) : Prop :=
  action = .leaveWait → AllStarted state.launch

/-- No GC master is running or still to run. -/
def AllFinished (state : Launch.State) : Prop :=
  ∀ id master, state.masters id = some master → master.pc = .finished

/-- The counter counts the masters that have started. -/
def Counted (state : Launch.State) : Prop :=
  ∃ pending : Finset ℕ, (∀ id, id ∈ pending ↔ Pending state id) ∧
    pending.card = state.pendingGcs

section Counted

variable {state next : Launch.State}

/-- A step that moves no master across the boundaries of the counter. -/
theorem Counted.congr (hcounted : Counted state)
    (hpending : ∀ id, Pending next id ↔ Pending state id)
    (hcount : next.pendingGcs = state.pendingGcs) : Counted next := by
  obtain ⟨pending, hmem, hcard⟩ := hcounted
  refine ⟨pending, fun id => ?_, hcard.trans hcount.symm⟩
  rw [hmem, hpending]

theorem pending_setMaster_iff {id other : ℕ} {master : Master} :
    Pending (state.setMaster id master) other ↔
      if other = id then master.pc ≠ .scheduled ∧ master.pc ≠ .finished
      else Pending state other := by
  by_cases hother : other = id
  · subst hother
    simp [Pending, Launch.State.setMaster]
  · simp [Pending, Launch.State.setMaster, hother]

/-- A started master moves without finishing. -/
theorem Counted.advance {id : ℕ} {pc target : MasterPc}
    {effect : Launch.State → Launch.State} (hcounted : Counted state)
    (hpc : pc ≠ .scheduled ∧ pc ≠ .finished)
    (htarget : target ≠ .scheduled ∧ target ≠ .finished)
    (heffect : (effect state).masters = state.masters ∧
      (effect state).pendingGcs = state.pendingGcs)
    (hadvance : state.advance id pc target effect = some next) : Counted next := by
  obtain ⟨master, hmaster, rfl, rfl⟩ := Launch.advance_eq_some hadvance
  refine hcounted.congr ?_ heffect.2
  intro other
  rw [pending_setMaster_iff]
  split
  · rename_i hother
    rw [hother]
    exact ⟨fun _ => ⟨master, hmaster, hpc⟩, fun _ => htarget⟩
  · rw [Pending, Pending, heffect.1]

theorem Counted.create {thread id : ℕ} {pc : LauncherPc} {origin : Launch.Origin}
    (hcounted : Counted state)
    (hcreate : state.create thread id pc origin = some next) : Counted next := by
  obtain ⟨-, hunused, rfl⟩ := Launch.create_eq_some hcreate
  refine hcounted.congr ?_ rfl
  intro other
  rw [pending_setMaster_iff]
  split
  · rename_i hother
    rw [hother]
    simp [Pending, hunused]
  · rfl

theorem Counted.start {id : ℕ} (hcounted : Counted state)
    (hstep : Launch.step state (.start id) = some next) : Counted next := by
  simp only [Launch.step] at hstep
  obtain ⟨master, hmaster, hpc, rfl⟩ := Launch.advance_eq_some hstep
  obtain ⟨pending, hmem, hcard⟩ := hcounted
  have hnew : id ∉ pending := by
    rw [hmem]
    rintro ⟨other, hother, hscheduled, -⟩
    cases hmaster.symm.trans hother
    exact hscheduled hpc
  refine ⟨insert id pending, fun other => ?_, ?_⟩
  · rw [pending_setMaster_iff, Finset.mem_insert]
    split
    · rename_i hother
      simp [hother]
    · rename_i hother
      simp only [hother, false_or, hmem]
      rfl
  · rw [Finset.card_insert_of_notMem hnew, hcard]
    rfl

theorem Counted.finish {id : ℕ} (hcounted : Counted state)
    (hstep : Launch.step state (.finish id) = some next) : Counted next := by
  simp only [Launch.step] at hstep
  obtain ⟨master, hmaster, hpc, rfl⟩ := Launch.advance_eq_some hstep
  obtain ⟨pending, hmem, hcard⟩ := hcounted
  have hold : id ∈ pending := by
    rw [hmem]
    exact ⟨master, hmaster, by simp [hpc], by simp [hpc]⟩
  refine ⟨pending.erase id, fun other => ?_, ?_⟩
  · rw [pending_setMaster_iff, Finset.mem_erase]
    split
    · rename_i hother
      simp [hother]
    · rename_i hother
      simp only [ne_eq, hother, not_false_eq_true, true_and, hmem]
      rfl
  · rw [Finset.card_erase_of_mem hold, hcard]
    rfl

theorem Counted.step {action : Launch.Action} (hcounted : Counted state)
    (hstep : Launch.step state action = some next) : Counted next := by
  cases action with
  | launch thread =>
      simp only [Launch.step] at hstep
      split at hstep
      · split at hstep <;> cases hstep
        · exact hcounted
        · exact hcounted.congr (fun _ => Iff.rfl) rfl
      · cases hstep
  | parkAndSwitch thread id => exact hcounted.create hstep
  | claim thread =>
      simp only [Launch.step] at hstep
      split at hstep
      · split at hstep <;> cases hstep <;>
          exact hcounted.congr (fun _ => Iff.rfl) rfl
      · cases hstep
  | spawn thread id => exact hcounted.create hstep
  | start id => exact hcounted.start hstep
  | checkLow id isFreeCacheLow =>
      simp only [Launch.step] at hstep
      refine hcounted.advance (by decide) ?_ ⟨rfl, rfl⟩ hstep
      cases isFreeCacheLow <;> decide
  | tryActivate id =>
      simp only [Launch.step] at hstep
      split at hstep
      · exact hcounted.advance (by decide) (by decide) ⟨rfl, rfl⟩ hstep
      · refine hcounted.advance (by decide) (by decide) ?_ hstep
        exact ⟨rfl, rfl⟩
  | collect id isFreeCacheHigh =>
      simp only [Launch.step] at hstep
      refine hcounted.advance (by decide) ?_ ⟨rfl, rfl⟩ hstep
      cases isFreeCacheHigh <;> decide
  | clearSpawned id =>
      simp only [Launch.step] at hstep
      refine hcounted.advance (by decide) (by decide) ?_ hstep
      exact ⟨rfl, rfl⟩
  | clearActive id =>
      simp only [Launch.step] at hstep
      refine hcounted.advance (by decide) (by decide) ?_ hstep
      exact ⟨rfl, rfl⟩
  | finish id => exact hcounted.finish hstep

/-- With a zero counter and every master started, every master has finished. -/
theorem Counted.allFinished (hcounted : Counted state) (hzero : state.pendingGcs = 0)
    (hstarted : AllStarted state) : AllFinished state := by
  obtain ⟨pending, hmem, hcard⟩ := hcounted
  rw [hzero, Finset.card_eq_zero] at hcard
  intro id master hmaster
  by_contra hunfinished
  have hpending : id ∈ pending :=
    (hmem id).mpr ⟨master, hmaster, hstarted.2 id master hmaster, hunfinished⟩
  rw [hcard] at hpending
  exact Finset.notMem_empty id hpending

/-- With every thread outside and every master finished, only a launch can
follow. -/
theorem eq_launch_of_step {action : Launch.Action}
    (houtside : ∀ thread, state.launchers thread = .outside)
    (hfinished : AllFinished state) (hstep : Launch.step state action = some next) :
    ∃ thread, action = .launch thread := by
  have hadvance : ∀ {id pc target effect}, pc ≠ MasterPc.finished →
      state.advance id pc target effect ≠ some next := by
    intro id pc target effect hpc hadvance
    obtain ⟨master, hmaster, rfl, -⟩ := Launch.advance_eq_some hadvance
    exact hpc (hfinished id master hmaster)
  have hcreate : ∀ {thread id pc origin}, pc ≠ LauncherPc.outside →
      state.create thread id pc origin ≠ some next := by
    intro thread id pc origin hpc hcreate
    exact hpc ((Launch.create_eq_some hcreate).1.symm.trans (houtside thread))
  cases action
  case launch thread => exact ⟨thread, rfl⟩
  all_goals
    simp only [Launch.step] at hstep
  case parkAndSwitch | spawn => exact absurd hstep (hcreate (by decide))
  case claim thread => simp [houtside] at hstep
  case tryActivate =>
    split at hstep <;> exact absurd hstep (hadvance (by decide))
  all_goals
    exact absurd hstep (hadvance (by decide))

end Counted

/-! ## Runs -/

structure Inv (state : State) : Prop where
  counted : Counted state.launch
  returned : state.destructor = .returned →
    (∀ thread, state.launch.launchers thread = .outside) ∧ AllFinished state.launch

section Step

variable {state next : State} {action : Action}

/-- A launcher or a master moves. -/
theorem step_launch_eq_some {launchAction : Launch.Action}
    (hstep : step state (.launch launchAction) = some next) :
    ∃ launch, Launch.step state.launch launchAction = some launch ∧
      next = { state with launch := launch } ∧
        ((∃ thread, launchAction = .launch thread) → state.destructor ≠ .returned) := by
  unfold step at hstep
  split at hstep
  · rename_i thread heq
    cases heq
    split at hstep
    · rename_i hrunning
      obtain ⟨launch, hlaunch, rfl⟩ := Option.map_eq_some_iff.mp hstep
      exact ⟨launch, hlaunch, rfl, fun _ => hrunning⟩
    · cases hstep
  · rename_i hother heq
    cases heq
    obtain ⟨launch, hlaunch, rfl⟩ := Option.map_eq_some_iff.mp hstep
    refine ⟨launch, hlaunch, rfl, ?_⟩
    rintro ⟨thread, rfl⟩
    exact absurd rfl (hother thread)
  · rename_i heq
    cases heq
  · rename_i heq
    cases heq

theorem Inv.step (hinv : Inv state) (hallowed : WaitsForStarted state action)
    (hstep : step state action = some next) : Inv next := by
  cases action with
  | launch launchAction =>
      obtain ⟨launch, hlaunch, rfl, hrunning⟩ := step_launch_eq_some hstep
      constructor
      case counted => exact hinv.counted.step hlaunch
      case returned =>
        intro hreturned
        obtain ⟨houtside, hfinished⟩ := hinv.returned hreturned
        exact absurd hreturned (hrunning (eq_launch_of_step houtside hfinished hlaunch))
  | enter =>
      simp only [Shutdown.step, Option.ite_none_right_eq_some, Option.some.injEq] at hstep
      obtain ⟨-, rfl⟩ := hstep
      exact ⟨hinv.counted, fun hreturned => by cases hreturned⟩
  | leaveWait =>
      simp only [Shutdown.step, Option.ite_none_right_eq_some, Option.some.injEq] at hstep
      obtain ⟨⟨-, hzero⟩, rfl⟩ := hstep
      have hstarted := hallowed rfl
      exact ⟨hinv.counted, fun _ => ⟨hstarted.1, hinv.counted.allFinished hzero hstarted⟩⟩

end Step

theorem inv_of_reachable {state : State}
    (hreachable : machine.ReachableUnder WaitsForStarted state) : Inv state := by
  apply hreachable.invariant
  · rintro state rfl
    constructor
    case counted => exact ⟨∅, by simp [Pending, start, Launch.start], rfl⟩
    case returned => simp [start]
  · exact fun hinv hallowed hstep => hinv.step hallowed hstep

/-- In every run in which the wait ends only where every created master has
started, no master is running or waiting to start once the destructor has
returned. -/
theorem allFinished_of_returned {state : State}
    (hreachable : machine.ReachableUnder WaitsForStarted state)
    (hreturned : state.destructor = .returned) : AllFinished state.launch :=
  ((inv_of_reachable hreachable).returned hreturned).2

/-- A spawned master that runs to its end before the destructor. -/
def finishedRun : List Action :=
  Launch.fullRun.map .launch ++ [.enter]

theorem allFinished_finishedRun :
    ∃ final, machine.ReachableUnder WaitsForStarted final ∧
      final.destructor = .returned ∧ AllFinished final.launch := by
  obtain ⟨state, hrun, hallowed, hwaiting, houtside, hmasters⟩ :
      ∃ state, machine.run start finishedRun = some state ∧
        machine.runAllowed (fun _ action => action != .leaveWait) start finishedRun =
          true ∧
        (state.destructor = .waiting ∧ state.launch.pendingGcs = 0) ∧
        (∀ thread, state.launch.launchers thread = .outside) ∧
          ∀ id, state.launch.masters id =
            if id = 0 then some ⟨.spawned, .finished⟩ else none := by
    refine ⟨_, rfl, rfl, ⟨rfl, rfl⟩, fun thread => ?_, fun id => ?_⟩
    · by_cases hthread : thread = 0 <;>
        simp [Launch.State.setLauncher, Launch.State.setMaster, Launch.start, start,
          hthread]
    · by_cases hid : id = 0 <;>
        simp [Launch.State.setLauncher, Launch.State.setMaster, Launch.start, start, hid]
  have hbefore : machine.ReachableUnder WaitsForStarted state := by
    refine .of_run ?_ (.initial rfl) hrun hallowed
    intro state action hcheck hleave
    simp [hleave] at hcheck
  have hstarted : AllStarted state.launch := by
    refine ⟨houtside, fun id master hmaster => ?_⟩
    rw [hmasters] at hmaster
    split at hmaster <;> cases hmaster
    decide
  have hstep : machine.step state .leaveWait =
      some { state with destructor := .returned } := by
    simp [machine, step, hwaiting]
  have hreachable := hbefore.step (fun _ => hstarted) hstep
  exact ⟨_, hreachable, rfl, allFinished_of_returned hreachable rfl⟩

/-- A spawned master that has not started when the wait ends. -/
def pendingRun : List Action :=
  [.launch (.launch 0), .launch (.claim 0), .launch (.spawn 0 0), .enter, .leaveWait]

theorem not_forall_allFinished :
    ¬ ∀ state, machine.Reachable state → state.destructor = .returned →
      AllFinished state.launch := by
  intro hclaim
  obtain ⟨state, hrun, hreturned, hmaster⟩ :
      ∃ state, machine.run start pendingRun = some state ∧
        state.destructor = .returned ∧
          state.launch.masters 0 = some ⟨.spawned, .scheduled⟩ :=
    ⟨_, rfl, rfl, rfl⟩
  have hfinished := hclaim state (.of_run rfl hrun) hreturned 0 _ hmaster
  cases hfinished

end DynamicSwap.Shutdown
