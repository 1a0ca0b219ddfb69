import DynamicSwap.Collector.Shutdown
import DynamicSwap.Pager.Threads

/-!
# The destructor and the detached threads

`~FarMemManager` clears `dynamic_manager_running` and waits for the GC masters.
The pager and the memory thread test the flag between passes only and nobody
waits for them, so they are quiet after the destructor if it does not return
inside a pass.
-/

namespace DynamicSwap.Pager.Shutdown

variable {Meta : Type} {count numGcThreads : ℕ}

/-- The threads of `dswap.cpp` next to the launchers and masters of the
collector and the destructor. -/
structure State (Meta : Type) (count numGcThreads : ℕ) where
  threads : Pager.State Meta count numGcThreads
  collector : DynamicSwap.Shutdown.State

inductive Action (count numGcThreads : ℕ) (Meta : Type)
  | threads (action : Pager.Action count numGcThreads Meta)
  | collector (action : DynamicSwap.Shutdown.Action)

variable (pointer : FarMemPtrMeta Meta) (pagerThread : Fin count)

/-- Entering the destructor calls `stop_dynamic_pager`. -/
def step (state : State Meta count numGcThreads) :
    Action count numGcThreads Meta → Option (State Meta count numGcThreads)
  | .threads action =>
      (Pager.step pointer pagerThread state.threads action).map
        fun threads => { state with threads := threads }
  | .collector action =>
      match DynamicSwap.Shutdown.step state.collector action with
      | none => none
      | some collector =>
          some
            { threads :=
                if action = .enter then
                  { state.threads with dynamicManagerRunning := false }
                else state.threads
              collector := collector }

def machine : Library.Machine (State Meta count numGcThreads)
    (Action count numGcThreads Meta) where
  initial state :=
    Started pointer state.threads ∧ state.collector = DynamicSwap.Shutdown.start
  step := step pointer pagerThread

/-- The step visits a registered pointer or belongs to a `swap_in`. -/
def Dereferences (state : Pager.State Meta count numGcThreads) :
    Pager.Action count numGcThreads Meta → Prop
  | .pager _ =>
      match state.pager with
      | .checkPresent _ _ | .swapIn _ _ => True
      | _ => False
  | .memory =>
      match state.memory with
      | .scan (_ :: _) _ _ => True
      | _ => False
  | _ => False

/-- The pager has no more refs to visit before it tests the flag again. -/
def PagerPc.Quiet : PagerPc → Prop
  | .test | .guard [] | .unlock | .stopped => True
  | .lock | .guard (_ :: _) | .checkPresent _ _ | .swapIn _ _ => False

def MemoryPc.Quiet : MemoryPc → Prop
  | .test | .scan [] _ _ | .store _ _ | .unlock | .stopped => True
  | .lock | .scan (_ :: _) _ _ => False

/-- The destructor returns only where both threads are past the visits of their
last pass. -/
def ReturnsOutsidePass (state : State Meta count numGcThreads)
    (action : Action count numGcThreads Meta) : Prop :=
  action = .collector .leaveWait →
    PagerPc.Quiet state.threads.pager ∧ MemoryPc.Quiet state.threads.memory

/-- After the destructor has returned, no step of the threads touches a
registered pointer. -/
def Quiescent (state : State Meta count numGcThreads) : Prop :=
  state.collector.destructor = .returned → ∀ action next,
    step pointer pagerThread state (.threads action) = some next →
      ¬ Dereferences state.threads action

/-- What every step keeps. -/
structure Inv (state : State Meta count numGcThreads) : Prop where
  stopped : state.collector.destructor ≠ .running →
    state.threads.dynamicManagerRunning = false
  quiet : state.collector.destructor = .returned →
    PagerPc.Quiet state.threads.pager ∧ MemoryPc.Quiet state.threads.memory

section Step

variable {pointer} {pagerThread}

/-- With the flag clear, a quiet pager stays quiet. -/
theorem quiet_pagerStep {state next : Pager.State Meta count numGcThreads} {objAddr : ℕ}
    (hstopped : state.dynamicManagerRunning = false) (hquiet : PagerPc.Quiet state.pager)
    (hstep : pagerStep pointer pagerThread state objAddr = some next) :
    PagerPc.Quiet next.pager := by
  cases pagerMove_of_pagerStep hstep with
  | test hpc =>
      rw [hstopped]
      trivial
  | visited hpc => trivial
  | unlock hpc => trivial
  | lock hpc | short _ _ hpc | enough _ _ hpc | present _ _ hpc | call _ _ _ hpc
  | finish _ _ _ hpc | swapIn _ _ _ hpc =>
      rw [hpc] at hquiet
      exact hquiet.elim

theorem quiet_memoryStep {state next : Pager.State Meta count numGcThreads}
    (hstopped : state.dynamicManagerRunning = false) (hquiet : MemoryPc.Quiet state.memory)
    (hstep : memoryStep pointer state = some next) : MemoryPc.Quiet next.memory := by
  cases memoryMove_of_memoryStep hstep with
  | test hpc =>
      rw [hstopped]
      trivial
  | scanned total visits hpc => trivial
  | store total visits hpc => trivial
  | unlock hpc => trivial
  | lock hpc | visit _ _ _ _ hpc =>
      rw [hpc] at hquiet
      exact hquiet.elim

/-- Only the pager's own steps move the pager and only the memory thread's own
move that thread; none sets the flag. -/
theorem quiet_step {state next : Pager.State Meta count numGcThreads}
    {action : Pager.Action count numGcThreads Meta}
    (hstopped : state.dynamicManagerRunning = false)
    (hstep : Pager.step pointer pagerThread state action = some next) :
    next.dynamicManagerRunning = false ∧
      (PagerPc.Quiet state.pager → PagerPc.Quiet next.pager) ∧
      (MemoryPc.Quiet state.memory → MemoryPc.Quiet next.memory) := by
  cases action with
  | far action =>
      simp only [Pager.step] at hstep
      split at hstep
      · cases hstep
      · obtain ⟨far, -, rfl⟩ := Option.map_eq_some_iff.mp hstep
        exact ⟨hstopped, id, id⟩
  | assign ptr word object =>
      simp only [Pager.step] at hstep
      split at hstep <;> cases hstep
      exact ⟨hstopped, id, id⟩
  | registerObject ptr size =>
      simp only [Pager.step] at hstep
      split at hstep <;> cases hstep
      exact ⟨hstopped, id, id⟩
  | stopDynamicPager =>
      cases hstep
      exact ⟨rfl, id, id⟩
  | pager objAddr =>
      refine ⟨(pagerStep_running hstep).trans hstopped, ?_, ?_⟩
      · exact fun hquiet => quiet_pagerStep hstopped hquiet hstep
      · exact fun hquiet => (pagerStep_frame hstep).2.1 ▸ hquiet
  | memory =>
      refine ⟨(memoryStep_frame hstep).1.trans hstopped, ?_, ?_⟩
      · exact fun hquiet => (memoryStep_frame hstep).2 ▸ hquiet
      · exact fun hquiet => quiet_memoryStep hstopped hquiet hstep

variable {state next : State Meta count numGcThreads}
variable {action : Action count numGcThreads Meta}

theorem Inv.step (hinv : Inv state) (hallowed : ReturnsOutsidePass state action)
    (hstep : step pointer pagerThread state action = some next) : Inv next := by
  cases action with
  | threads action =>
      obtain ⟨threads, hthreads, rfl⟩ := Option.map_eq_some_iff.mp hstep
      constructor
      case stopped => exact fun hentered => (quiet_step (hinv.stopped hentered) hthreads).1
      case quiet =>
        intro hreturned
        have hentered : state.collector.destructor ≠ .running := by
          rw [hreturned]
          decide
        obtain ⟨-, hpager, hmemory⟩ := quiet_step (hinv.stopped hentered) hthreads
        exact (hinv.quiet hreturned).imp hpager hmemory
  | collector action =>
      simp only [Shutdown.step] at hstep
      split at hstep
      · cases hstep
      rename_i collector hcollector
      cases hstep
      cases action with
      | launch launchAction =>
          obtain ⟨launch, -, rfl, -⟩ :=
            DynamicSwap.Shutdown.step_launch_eq_some hcollector
          exact ⟨hinv.stopped, hinv.quiet⟩
      | enter =>
          simp only [DynamicSwap.Shutdown.step, Option.ite_none_right_eq_some,
            Option.some.injEq] at hcollector
          obtain ⟨-, rfl⟩ := hcollector
          exact ⟨fun _ => rfl, fun hreturned => by cases hreturned⟩
      | leaveWait =>
          simp only [DynamicSwap.Shutdown.step, Option.ite_none_right_eq_some,
            Option.some.injEq] at hcollector
          obtain ⟨⟨hwaiting, -⟩, rfl⟩ := hcollector
          refine ⟨fun _ => ?_, fun _ => hallowed rfl⟩
          apply hinv.stopped
          rw [hwaiting]
          decide

/-- In every run in which the destructor does not return inside a pass, neither
thread touches a registered pointer after it has returned. -/
theorem quiescent_of_reachable
    (hreachable : (machine pointer pagerThread).ReachableUnder ReturnsOutsidePass state) :
    Quiescent pointer pagerThread state := by
  have hinv : Inv state := by
    apply hreachable.invariant
    · intro start hinitial
      constructor
      case stopped => simp [hinitial.2, DynamicSwap.Shutdown.start]
      case quiet => simp [hinitial.2, DynamicSwap.Shutdown.start]
    · exact fun hinv hallowed hstep => hinv.step hallowed hstep
  intro hreturned action next _ hdereferences
  obtain ⟨hpager, hmemory⟩ := hinv.quiet hreturned
  cases action with
  | pager objAddr =>
      cases hpc : state.threads.pager <;>
        simp [Dereferences, PagerPc.Quiet, hpc] at hdereferences hpager
  | memory =>
      cases hpc : state.threads.memory with
      | scan rest total visits =>
          cases rest <;> simp [Dereferences, MemoryPc.Quiet, hpc] at hdereferences hmemory
      | _ => simp [Dereferences, hpc] at hdereferences
  | _ => exact hdereferences

end Step

/-! ## A pass across the destructor -/

/-- Both threads and the collector at their start over two remote objects. -/
def twoThreads : State ℕ 2 1 where
  threads := smallCache
  collector := DynamicSwap.Shutdown.start

/-- A scan and a pass up to its first call. -/
def callingRun : List (Action 2 1 ℕ) :=
  List.replicate 7 (.threads .memory) ++ List.replicate 4 (.threads (.pager 0))

/-- The destructor runs between the flag test and the `swap_in` of a pass. -/
def destroyedRun : List (Action 2 1 ℕ) :=
  callingRun ++ [.collector .enter, .collector .leaveWait]

/-- The destructor runs after a scan and before the first pass. -/
def betweenPassesRun : List (Action 2 1 ℕ) :=
  List.replicate 7 (.threads .memory) ++
    [.collector .enter, .collector .leaveWait, .threads .memory, .threads (.pager 0)]

/-- Both threads are at their test: a sufficient check on a run. -/
def returnsAtTest (state : State ℕ 2 1) : Action 2 1 ℕ → Bool
  | .collector .leaveWait =>
      decide (state.threads.pager = .test) && decide (state.threads.memory = .test)
  | _ => true

theorem returnsOutsidePass_of_returnsAtTest {state : State ℕ 2 1} {action : Action 2 1 ℕ}
    (hcheck : returnsAtTest state action = true) : ReturnsOutsidePass state action := by
  rintro rfl
  simp only [returnsAtTest, Bool.and_eq_true, decide_eq_true_eq] at hcheck
  rw [hcheck.1, hcheck.2]
  exact ⟨trivial, trivial⟩

theorem quiescent_betweenPassesRun :
    ∃ final, (machine (FarMemPtrMeta.pointerHpp 16) 1).run twoThreads betweenPassesRun =
        some final ∧
      final.collector.destructor = .returned ∧
        Quiescent (FarMemPtrMeta.pointerHpp 16) 1 final := by
  obtain ⟨final, hrun, hallowed, hreturned⟩ :
      ∃ final, (machine (FarMemPtrMeta.pointerHpp 16) 1).run twoThreads
          betweenPassesRun = some final ∧
        (machine (FarMemPtrMeta.pointerHpp 16) 1).runAllowed returnsAtTest twoThreads
          betweenPassesRun = true ∧
        final.collector.destructor = .returned :=
    ⟨_, rfl, rfl, rfl⟩
  exact ⟨final, hrun, hreturned, quiescent_of_reachable
    (.of_run returnsOutsidePass_of_returnsAtTest (.initial ⟨started_smallCache, rfl⟩)
      hrun hallowed)⟩

/-- The pager swaps in after the destructor has returned. -/
theorem not_forall_quiescent :
    ¬ ∀ (pointer : FarMemPtrMeta ℕ) (state : State ℕ 2 1),
      (machine pointer 1).Reachable state → Quiescent pointer 1 state := by
  intro hclaim
  obtain ⟨state, hrun, hreturned, hpager, hsome⟩ :
      ∃ state, (machine (FarMemPtrMeta.pointerHpp 16) 1).run twoThreads
          destroyedRun = some state ∧
        state.collector.destructor = .returned ∧
        state.threads.pager = .swapIn ⟨8, 950⟩ [⟨16, 950⟩] ∧
        (step (FarMemPtrMeta.pointerHpp 16) 1 state (.threads (.pager 0))).isSome =
          true :=
    ⟨_, rfl, rfl, rfl, rfl⟩
  obtain ⟨next, hstep⟩ := Option.isSome_iff_exists.mp hsome
  have hreachable : (machine (FarMemPtrMeta.pointerHpp 16) 1).Reachable state :=
    .of_run ⟨started_smallCache, rfl⟩ hrun
  apply hclaim _ state hreachable hreturned _ next hstep
  rw [Dereferences, hpager]
  trivial

end DynamicSwap.Pager.Shutdown
