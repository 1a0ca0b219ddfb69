import DynamicSwap.Library.Machine

/-!
# Launching the collector

`launch_gc_master` starts a GC master either on the calling context or, with
preemption disabled, on a new thread guarded by `gc_master_spawned_`.
`gc_cache` clears that flag only at its end, while its two early returns leave
it set.  The flags are therefore clear at rest in the runs where a master that
returns early is relieved: another one is still on its way to the end.
-/

namespace DynamicSwap.Launch

/-- Branch of `launch_gc_master` that created a master: `ParkAndSwitch` or
`Spawn`. -/
inductive Origin
  | parked
  | spawned
  deriving DecidableEq

/-- Position of a master in the function that `launch_gc_master` passes on. -/
inductive MasterPc
  | scheduled
  | checkLow
  | tryActivate
  | collecting
  | clearSpawned
  | clearActive
  | returning
  | finished
  deriving DecidableEq

structure Master where
  origin : Origin
  pc : MasterPc
  deriving DecidableEq

/-- Position of a thread in `launch_gc_master`. -/
inductive LauncherPc
  | outside
  | launching
  | spawning
  deriving DecidableEq

/-- The flags of the collector and the position of every thread.  A master
identifier is unused while `masters` maps it to `none`. -/
structure State where
  gcMasterActive : Bool
  gcMasterSpawned : Bool
  pendingGcs : ℕ
  launchers : ℕ → LauncherPc
  masters : ℕ → Option Master

/-- One atomic step.  The answers of `is_free_cache_low`, `is_free_cache_high`
and `preempt_enabled` are choices of the action. -/
inductive Action
  | launch (thread : ℕ)
  | parkAndSwitch (thread id : ℕ)
  | claim (thread : ℕ)
  | spawn (thread id : ℕ)
  | start (id : ℕ)
  | checkLow (id : ℕ) (isFreeCacheLow : Bool)
  | tryActivate (id : ℕ)
  | collect (id : ℕ) (isFreeCacheHigh : Bool)
  | clearSpawned (id : ℕ)
  | clearActive (id : ℕ)
  | finish (id : ℕ)
  deriving DecidableEq

namespace State

def setLauncher (state : State) (thread : ℕ) (pc : LauncherPc) : State :=
  { state with launchers := Function.update state.launchers thread pc }

def setMaster (state : State) (id : ℕ) (master : Master) : State :=
  { state with masters := Function.update state.masters id (some master) }

/-- Create a master for a thread that is at `pc` of `launch_gc_master`. -/
def create (state : State) (thread id : ℕ) (pc : LauncherPc) (origin : Origin) :
    Option State :=
  if state.launchers thread = pc ∧ state.masters id = none then
    some ((state.setLauncher thread .outside).setMaster id ⟨origin, .scheduled⟩)
  else none

/-- Move the master `id` from `pc` to `target`, applying `effect` to the rest
of the state. -/
def advance (state : State) (id : ℕ) (pc target : MasterPc)
    (effect : State → State) : Option State :=
  match state.masters id with
  | none => none
  | some master =>
      if master.pc = pc then
        some ((effect state).setMaster id { master with pc := target })
      else none

end State

def step (state : State) : Action → Option State
  | .launch thread =>
      if state.launchers thread = .outside then
        some (if state.gcMasterActive then state
          else state.setLauncher thread .launching)
      else none
  | .parkAndSwitch thread id => state.create thread id .launching .parked
  | .claim thread =>
      if state.launchers thread = .launching then
        some (if state.gcMasterSpawned then state.setLauncher thread .outside
          else { state.setLauncher thread .spawning with gcMasterSpawned := true })
      else none
  | .spawn thread id => state.create thread id .spawning .spawned
  | .start id =>
      state.advance id .scheduled .checkLow
        fun state => { state with pendingGcs := state.pendingGcs + 1 }
  | .checkLow id isFreeCacheLow =>
      state.advance id .checkLow
        (if isFreeCacheLow then .tryActivate else .returning) fun state => state
  | .tryActivate id =>
      if state.gcMasterActive then
        state.advance id .tryActivate .returning fun state => state
      else
        state.advance id .tryActivate .collecting
          fun state => { state with gcMasterActive := true }
  | .collect id isFreeCacheHigh =>
      state.advance id .collecting
        (if isFreeCacheHigh then .clearSpawned else .collecting) fun state => state
  | .clearSpawned id =>
      state.advance id .clearSpawned .clearActive
        fun state => { state with gcMasterSpawned := false }
  | .clearActive id =>
      state.advance id .clearActive .returning
        fun state => { state with gcMasterActive := false }
  | .finish id =>
      state.advance id .returning .finished
        fun state => { state with pendingGcs := state.pendingGcs - 1 }

/-- Before the first launch. -/
def start : State where
  gcMasterActive := false
  gcMasterSpawned := false
  pendingGcs := 0
  launchers := fun _ => .outside
  masters := fun _ => none

def machine : Library.Machine State Action where
  initial state := state = start
  step := step

/-- The master will clear `gc_master_spawned_` unless it returns early. -/
def Master.Responsible (master : Master) : Prop :=
  match master.pc with
  | .scheduled | .checkLow | .tryActivate | .collecting | .clearSpawned => True
  | .clearActive | .returning | .finished => False

/-- The master holds `gc_master_active`. -/
def Master.Activated (master : Master) : Prop :=
  match master.pc with
  | .collecting | .clearSpawned | .clearActive => True
  | .scheduled | .checkLow | .tryActivate | .returning | .finished => False

/-- The action makes the master `id` return early from `gc_cache`. -/
def EarlyReturn (state : State) (action : Action) (id : ℕ) : Prop :=
  action = .checkLow id false ∨
    (action = .tryActivate id ∧ state.gcMasterActive = true)

/-- Whenever a master returns early while `gc_master_spawned_` is set, another
one is still on its way to clearing it. -/
def Relieved (state : State) (action : Action) : Prop :=
  ∀ id, EarlyReturn state action id → state.gcMasterSpawned = true →
    (∃ thread, state.launchers thread = .spawning) ∨
      ∃ other master, other ≠ id ∧ state.masters other = some master ∧
        master.Responsible

/-- No thread executes `gc_cache` and none is scheduled to. -/
def Quiescent (state : State) : Prop :=
  (∀ thread, state.launchers thread ≠ .spawning) ∧
    ∀ id master, state.masters id = some master →
      master.pc = .returning ∨ master.pc = .finished

/-! ## Invariants -/

/-- Some master satisfies a predicate. -/
def Held (predicate : Master → Prop) (masters : ℕ → Option Master) : Prop :=
  ∃ id master, masters id = some master ∧ predicate master

theorem Held.update {predicate : Master → Prop} {masters : ℕ → Option Master}
    {id : ℕ} {new : Master} (hheld : Held predicate masters)
    (hkeep : ∀ old, masters id = some old → predicate old → predicate new) :
    Held predicate (Function.update masters id (some new)) := by
  obtain ⟨other, master, hmaster, hpredicate⟩ := hheld
  by_cases hother : other = id
  · subst other
    exact ⟨id, new, Function.update_self .., hkeep master hmaster hpredicate⟩
  · exact ⟨other, master, by rwa [Function.update_of_ne hother], hpredicate⟩

theorem Held.of_update {predicate : Master → Prop}
    {masters : ℕ → Option Master} {id : ℕ} {new : Master}
    (hnew : predicate new) :
    Held predicate (Function.update masters id (some new)) :=
  ⟨id, new, Function.update_self .., hnew⟩

/-- Each flag, while set, has a thread that will clear it. -/
structure Cleared (state : State) : Prop where
  spawned : state.gcMasterSpawned = true →
    (∃ thread, state.launchers thread = .spawning) ∨
      Held Master.Responsible state.masters
  active : state.gcMasterActive = true →
    Held Master.Activated state.masters

theorem cleared_start : Cleared start where
  spawned := by simp [start]
  active := by simp [start]

theorem advance_eq_some {state next : State} {id : ℕ} {pc target : MasterPc}
    {effect : State → State}
    (hadvance : state.advance id pc target effect = some next) :
    ∃ master, state.masters id = some master ∧ master.pc = pc ∧
      next = (effect state).setMaster id { master with pc := target } := by
  unfold State.advance at hadvance
  split at hadvance
  · exact absurd hadvance (by simp)
  · rename_i master hmaster
    split at hadvance
    · rename_i hpc
      exact ⟨master, hmaster, hpc, (Option.some.inj hadvance).symm⟩
    · exact absurd hadvance (by simp)

theorem create_eq_some {state next : State} {thread id : ℕ} {pc : LauncherPc}
    {origin : Origin} (hcreate : state.create thread id pc origin = some next) :
    state.launchers thread = pc ∧ state.masters id = none ∧
      next = (state.setLauncher thread .outside).setMaster id
        ⟨origin, .scheduled⟩ := by
  unfold State.create at hcreate
  split at hcreate
  · rename_i hready
    exact ⟨hready.1, hready.2, (Option.some.inj hcreate).symm⟩
  · exact absurd hcreate (by simp)

/-- A master moves without losing a responsibility and both flags stay. -/
theorem Cleared.setMaster {state : State} (hcleared : Cleared state) {id : ℕ}
    {new : Master}
    (hresponsible : ∀ old, state.masters id = some old →
      old.Responsible → new.Responsible)
    (hactivated : ∀ old, state.masters id = some old →
      old.Activated → new.Activated) :
    Cleared (state.setMaster id new) where
  spawned hspawned := (hcleared.spawned hspawned).imp_right
    fun hheld => hheld.update hresponsible
  active hactive := (hcleared.active hactive).update hactivated

/-- A master moves on with what it is responsible for, and both flags stay. -/
theorem Cleared.advance {state next : State} {id : ℕ} {pc target : MasterPc}
    {effect : State → State}
    (hadvance : state.advance id pc target effect = some next)
    (heffect : Cleared (effect state))
    (hmasters : (effect state).masters = state.masters)
    (hresponsible : ∀ origin, Master.Responsible ⟨origin, pc⟩ →
      Master.Responsible ⟨origin, target⟩)
    (hactivated : ∀ origin, Master.Activated ⟨origin, pc⟩ →
      Master.Activated ⟨origin, target⟩) : Cleared next := by
  obtain ⟨master, hmaster, rfl, rfl⟩ := advance_eq_some hadvance
  rw [← hmasters] at hmaster
  apply heffect.setMaster
  · intro old hold
    cases hmaster.symm.trans hold
    exact hresponsible master.origin
  · intro old hold
    cases hmaster.symm.trans hold
    exact hactivated master.origin

theorem Cleared.setLauncher {state : State} (hcleared : Cleared state)
    {thread : ℕ} {pc : LauncherPc}
    (hlauncher : state.launchers thread ≠ .spawning) :
    Cleared (state.setLauncher thread pc) where
  spawned hspawned := by
    refine (hcleared.spawned hspawned).imp_left ?_
    rintro ⟨other, hother⟩
    refine ⟨other, ?_⟩
    have hne : other ≠ thread := by
      rintro rfl
      exact hlauncher hother
    simpa [State.setLauncher, Function.update_of_ne hne] using hother
  active := hcleared.active

/-- An early return of a relieved master. -/
theorem Cleared.earlyReturn {state : State} {action : Action}
    (hcleared : Cleared state) (hrelieved : Relieved state action) {id : ℕ}
    {old : Master} (hreturn : EarlyReturn state action id)
    (hold : state.masters id = some old) (hinactive : ¬ old.Activated) :
    Cleared (state.setMaster id { old with pc := .returning }) where
  spawned hspawned := by
    refine (hrelieved id hreturn hspawned).imp_right ?_
    rintro ⟨other, master, hother, hmaster, hresponsible⟩
    refine ⟨other, master, ?_, hresponsible⟩
    simpa [State.setMaster, Function.update_of_ne hother] using hmaster
  active hactive := by
    refine (hcleared.active hactive).update ?_
    intro other hother hactivated
    rw [hold, Option.some.injEq] at hother
    exact absurd (hother ▸ hactivated) hinactive

theorem Cleared.step {state next : State} {action : Action}
    (hcleared : Cleared state) (hrelieved : Relieved state action)
    (hstep : step state action = some next) : Cleared next := by
  cases action with
  | launch thread =>
      simp only [Launch.step] at hstep
      split at hstep
      · rename_i houtside
        split at hstep <;> cases hstep
        · exact hcleared
        · exact hcleared.setLauncher (by simp [houtside])
      · cases hstep
  | parkAndSwitch thread id =>
      obtain ⟨hlaunching, hunused, rfl⟩ := create_eq_some hstep
      refine (hcleared.setLauncher (by simp [hlaunching])).setMaster ?_ ?_
      · intro old hold
        exact absurd (hunused.symm.trans hold) (by simp)
      · intro old hold
        exact absurd (hunused.symm.trans hold) (by simp)
  | claim thread =>
      simp only [Launch.step] at hstep
      split at hstep
      · rename_i hlaunching
        split at hstep <;> cases hstep
        · exact hcleared.setLauncher (by simp [hlaunching])
        · exact ⟨fun _ => .inl ⟨thread, Function.update_self ..⟩,
            hcleared.active⟩
      · cases hstep
  | spawn thread id =>
      obtain ⟨-, hunused, rfl⟩ := create_eq_some hstep
      refine ⟨fun _ => .inr (Held.of_update trivial), fun hactive => ?_⟩
      refine (hcleared.active hactive).update ?_
      intro old hold
      exact absurd (hunused.symm.trans hold) (by simp)
  | start id =>
      simp only [Launch.step] at hstep
      exact Cleared.advance hstep ⟨hcleared.spawned, hcleared.active⟩ rfl
        (fun _ hspawned => hspawned) fun _ hactivated => hactivated
  | checkLow id isFreeCacheLow =>
      simp only [Launch.step] at hstep
      cases isFreeCacheLow with
      | false =>
          obtain ⟨master, hmaster, hpc, rfl⟩ := advance_eq_some hstep
          exact hcleared.earlyReturn hrelieved (.inl rfl) hmaster
            (by simp [Master.Activated, hpc])
      | true =>
          exact Cleared.advance hstep hcleared rfl
            (fun _ hspawned => hspawned) fun _ hactivated => hactivated
  | tryActivate id =>
      simp only [Launch.step] at hstep
      split at hstep
      · rename_i hactive
        obtain ⟨master, hmaster, hpc, rfl⟩ := advance_eq_some hstep
        exact hcleared.earlyReturn hrelieved (.inr ⟨rfl, hactive⟩) hmaster
          (by simp [Master.Activated, hpc])
      · obtain ⟨master, hmaster, hpc, rfl⟩ := advance_eq_some hstep
        exact ⟨fun _ => .inr (Held.of_update trivial),
          fun _ => Held.of_update trivial⟩
  | collect id isFreeCacheHigh =>
      simp only [Launch.step] at hstep
      apply Cleared.advance hstep hcleared rfl
      · cases isFreeCacheHigh <;> exact fun _ _ => trivial
      · cases isFreeCacheHigh <;> exact fun _ _ => trivial
  | clearSpawned id =>
      simp only [Launch.step] at hstep
      obtain ⟨master, hmaster, hpc, rfl⟩ := advance_eq_some hstep
      refine ⟨fun hspawned => absurd hspawned (by simp [State.setMaster]), ?_⟩
      intro hactive
      exact (hcleared.active hactive).update fun _ _ _ => trivial
  | clearActive id =>
      simp only [Launch.step] at hstep
      obtain ⟨master, hmaster, hpc, rfl⟩ := advance_eq_some hstep
      refine ⟨fun hspawned => ?_,
        fun hactive => absurd hactive (by simp [State.setMaster])⟩
      refine (hcleared.spawned hspawned).imp_right fun hheld =>
        hheld.update ?_
      intro old hold hresponsible
      cases hmaster.symm.trans hold
      simp [Master.Responsible, hpc] at hresponsible
  | finish id =>
      simp only [Launch.step] at hstep
      exact Cleared.advance hstep ⟨hcleared.spawned, hcleared.active⟩ rfl
        (fun _ hresponsible => hresponsible) fun _ hactivated => hactivated

theorem cleared_of_reachable {state : State}
    (hreachable : machine.ReachableUnder Relieved state) : Cleared state :=
  hreachable.invariant Cleared
    (fun {state} hinitial => by
      rw [show state = start from hinitial]
      exact cleared_start)
    (fun hcleared hrelieved hstep => hcleared.step hrelieved hstep)

theorem not_held_of_quiescent {state : State} (hquiescent : Quiescent state) :
    ¬ Held Master.Responsible state.masters ∧
      ¬ Held Master.Activated state.masters := by
  constructor
  all_goals
    rintro ⟨id, master, hmaster, hpredicate⟩
    rcases hquiescent.2 id master hmaster with hpc | hpc
  all_goals
    simp [Master.Responsible, Master.Activated, hpc] at hpredicate

/-- With both flags clear, a launch with preemption disabled spawns. -/
theorem run_launch {state : State} (hactive : state.gcMasterActive = false)
    (hspawned : state.gcMasterSpawned = false) {thread id : ℕ}
    (houtside : state.launchers thread = .outside)
    (hunused : state.masters id = none) :
    ∃ next, machine.run state [.launch thread, .claim thread, .spawn thread id] =
        some next ∧ next.masters id = some ⟨.spawned, .scheduled⟩ := by
  simp [machine, Library.Machine.run, step, houtside, hactive, hspawned,
    State.setLauncher, State.setMaster, State.create, hunused]

/-- In every run in which each master that returns early is relieved, both
flags are clear whenever no collection runs or is scheduled, and the next
launch with preemption disabled spawns a master. -/
theorem relaunchable {state : State}
    (hreachable : machine.ReachableUnder Relieved state)
    (hquiescent : Quiescent state) :
    state.gcMasterSpawned = false ∧ state.gcMasterActive = false ∧
      ∀ thread id, state.launchers thread = .outside →
        state.masters id = none →
          ∃ next, machine.run state
              [.launch thread, .claim thread, .spawn thread id] = some next ∧
            next.masters id = some ⟨.spawned, .scheduled⟩ := by
  have hcleared := cleared_of_reachable hreachable
  obtain ⟨hnotResponsible, hnotActivated⟩ := not_held_of_quiescent hquiescent
  have hspawned : state.gcMasterSpawned = false := by
    by_contra hset
    rcases hcleared.spawned (by simpa using hset) with ⟨thread, hthread⟩ | hheld
    · exact hquiescent.1 thread hthread
    · exact hnotResponsible hheld
  have hactive : state.gcMasterActive = false := by
    by_contra hset
    exact hnotActivated (hcleared.active (by simpa using hset))
  exact ⟨hspawned, hactive, fun thread id => run_launch hactive hspawned⟩

/-- A spawned master that runs to the end of `gc_cache`. -/
def fullRun : List Action :=
  [.launch 0, .claim 0, .spawn 0 0, .start 0, .checkLow 0 true, .tryActivate 0,
    .collect 0 true, .clearSpawned 0, .clearActive 0, .finish 0]

/-- A spawned master that finds enough free cache and returns early. -/
def earlyRun : List Action :=
  [.launch 0, .claim 0, .spawn 0 0, .start 0, .checkLow 0 false, .finish 0]

/-- No early return: a sufficient check for `Relieved` on a run. -/
def noEarlyReturn (state : State) : Action → Bool
  | .checkLow _ isFreeCacheLow => isFreeCacheLow
  | .tryActivate _ => !state.gcMasterActive
  | _ => true

theorem relieved_of_noEarlyReturn {state : State} {action : Action}
    (hcheck : noEarlyReturn state action = true) : Relieved state action := by
  rintro id (rfl | ⟨rfl, hactive⟩)
  · simp [noEarlyReturn] at hcheck
  · simp [noEarlyReturn, hactive] at hcheck

/-- The only master of a run is past `gc_cache`. -/
def AtRest (state : State) : Prop :=
  (∀ thread, state.launchers thread = .outside) ∧
    ∀ id, state.masters id =
      if id = 0 then some ⟨.spawned, .finished⟩ else none

theorem AtRest.quiescent {state : State} (hrest : AtRest state) :
    Quiescent state := by
  refine ⟨fun thread => by simp [hrest.1 thread], fun id master hmaster => ?_⟩
  rw [hrest.2 id] at hmaster
  split at hmaster <;> cases hmaster
  exact .inr rfl

theorem run_fullRun :
    ∃ state, machine.run start fullRun = some state ∧ AtRest state := by
  refine ⟨_, rfl, fun thread => ?_, fun id => ?_⟩
  · by_cases hthread : thread = 0 <;>
      simp [State.setLauncher, State.setMaster, start, hthread]
  · by_cases hid : id = 0 <;> simp [State.setMaster, State.setLauncher, start, hid]

theorem run_earlyRun :
    ∃ state, machine.run start earlyRun = some state ∧ AtRest state ∧
      state.gcMasterSpawned = true := by
  refine ⟨_, rfl, ⟨fun thread => ?_, fun id => ?_⟩, rfl⟩
  · by_cases hthread : thread = 0 <;>
      simp [State.setLauncher, State.setMaster, start, hthread]
  · by_cases hid : id = 0 <;> simp [State.setMaster, State.setLauncher, start, hid]

theorem relaunchable_fullRun :
    ∃ state, machine.run start fullRun = some state ∧
      state.gcMasterSpawned = false ∧ state.gcMasterActive = false ∧
      ∃ next, machine.run state [.launch 0, .claim 0, .spawn 0 1] = some next ∧
        next.masters 1 = some ⟨.spawned, .scheduled⟩ := by
  obtain ⟨state, hrun, hrest⟩ := run_fullRun
  have hreachable : machine.ReachableUnder Relieved state :=
    .of_run relieved_of_noEarlyReturn (.initial rfl) hrun (by decide)
  obtain ⟨hspawned, hactive, hlaunch⟩ :=
    relaunchable hreachable hrest.quiescent
  exact ⟨state, hrun, hspawned, hactive,
    hlaunch 0 1 (hrest.1 0) (by simp [hrest.2])⟩

/-- After the early return of the only master `gc_master_spawned_` stays set. -/
theorem not_forall_flags_false :
    ¬ ∀ state, machine.Reachable state → Quiescent state →
      state.gcMasterSpawned = false ∧ state.gcMasterActive = false := by
  intro hclaim
  obtain ⟨state, hrun, hrest, hspawned⟩ := run_earlyRun
  have hreachable : machine.Reachable state := .of_run rfl hrun
  have hclear := (hclaim state hreachable hrest.quiescent).1
  exact absurd (hspawned.symm.trans hclear) (by decide)

end DynamicSwap.Launch
