import DynamicSwap.Library.Nesting

/-!
# Where preemption is disabled

The collector and the allocators disable preemption, hand a guard on and enable
preemption around their waits.  Each function is a trace of what it does to the
preemption count and of its calls that yield or block, for every path through its
branches and loops.  The collector's guard is released by the first marking, so a
round before that which finds no region yields with preemption disabled.
-/

namespace DynamicSwap.Preemption

open Library.Nesting (Event follow Balanced SaneFrom depth)

/-- Calls that need preemption enabled: what yields or blocks, and the
assertions that say so. -/
inductive Call
  | threadYield
  | conditionWait
  | lockGcLock
  | execute
  | assertPreemptEnabled
  deriving DecidableEq

/-- How the program is built, without `STW_GC`. -/
structure Build where
  gcLog : Bool
  debug : Bool

abbrev Trace := List (Event Call)

/-- `LOG_PRINTF`. -/
def logPrintf : Trace := [.disable, .enable]

/-- `region_spin_` from `Lock` to `Unlock`; the runtime's spin locks disable
preemption while they are held. -/
def regionSpin : Trace := [.disable, .enable]

/-- The action of a guard that is reset or leaves its scope; it runs once. -/
def runGuard (armed : Bool) (action : Trace) : Trace :=
  if armed then action else []

/-! ## The collector -/

/-- A round of `gc_cache` with from-regions: how many, whether the used queues
ran out, whether the `ioctl` fails in each of the three calls of
`start_prioritizing`, and how often the round yields to the mutators. -/
structure Collection where
  regions : ℕ
  lastPopFails : Bool
  ioctlFails : Fin 3 → Bool
  yields : ℕ

inductive Round
  | noneFound
  | collected (collection : Collection)

/-- A path through `gc_cache`: an early return, or the rounds. -/
inductive GcPath
  | cacheNotLow
  | masterActive
  | collects (rounds : List Round)

/-- The first round finds no from-region. -/
def firstFindsNone : List Round → Bool
  | .noneFound :: _ => true
  | _ => false

def GcPath.firstFindsNone : GcPath → Bool
  | .collects rounds => Preemption.firstFindsNone rounds
  | _ => false

/-- `start_prioritizing`. -/
def startPrioritizing (ioctlFails : Bool) : Trace :=
  if ioctlFails then logPrintf else []

/-- `pick_from_regions`: each region popped is moved with preemption disabled;
the last pop may fail. -/
def pickFromRegions (regions : ℕ) (lastPopFails : Bool) : Trace :=
  (List.replicate regions (regionSpin ++ [.disable, .enable])).flatten ++
    if lastPopFails then regionSpin else []

/-- The action of `preempt_guard`. -/
def preemptGuard : Trace := [.enable, .call .assertPreemptEnabled]

/-- `mark_fm_ptrs`, which resets the guard. -/
def markFmPtrs (armed : Bool) (collection : Collection) : Trace :=
  startPrioritizing (collection.ioctlFails 0) ++ runGuard armed preemptGuard ++
    [.call .execute]

/-- `wait_mutators_observation`. -/
def waitMutatorsObservation (collection : Collection) : Trace :=
  startPrioritizing (collection.ioctlFails 1) ++
    List.replicate collection.yields (.call .threadYield)

/-- `write_back_regions`. -/
def writeBackRegions (collection : Collection) : Trace :=
  startPrioritizing (collection.ioctlFails 2) ++ [.call .execute]

/-- The rest of a round: the regions are pushed and the waiting mutators
signalled under `gc_lock_`. -/
def pushFreeRegions (build : Build) (collection : Collection) : Trace :=
  (List.replicate collection.regions regionSpin).flatten ++ [.call .lockGcLock] ++
    if build.gcLog then (List.replicate 6 logPrintf).flatten else []

/-- The loop of `gc_cache` and what follows it.  `armed` says whether the guard
still has to run. -/
def gcRounds (build : Build) : Bool → List Round → Trace
  | armed, [] => (if build.gcLog then logPrintf else []) ++ runGuard armed preemptGuard
  | armed, .noneFound :: rounds =>
      pickFromRegions 0 true ++ logPrintf ++ [.call .threadYield] ++ gcRounds build armed rounds
  | armed, .collected collection :: rounds =>
      pickFromRegions collection.regions collection.lastPopFails ++
        markFmPtrs armed collection ++ waitMutatorsObservation collection ++
          writeBackRegions collection ++ pushFreeRegions build collection ++
            gcRounds build false rounds

/-- `gc_cache`. -/
def gcCache (build : Build) (path : GcPath) : Trace :=
  [.call .assertPreemptEnabled, .disable] ++
    match path with
    | .cacheNotLow => runGuard true preemptGuard
    | .masterActive => runGuard true preemptGuard
    | .collects rounds =>
        (if build.gcLog then logPrintf else []) ++ gcRounds build true rounds

/-! ## The allocators -/

/-- A path through `mutator_wait_for_gc_cache`: there is space again, the caller
is in a `DerefScope` and the process exits, or it waits once and `more` times. -/
inductive WaitPath
  | notAlmostEmpty
  | inDerefScope
  | waits (more : ℕ)

/-- `exit` is called. -/
def WaitPath.exits : WaitPath → Bool
  | .inDerefScope => true
  | _ => false

/-- `mutator_wait_for_gc_cache`. -/
def mutatorWaitForGcCache (build : Build) (path : WaitPath) : Trace :=
  [.call .assertPreemptEnabled, .call .lockGcLock] ++
    match path with
    | .notAlmostEmpty => []
    | .inDerefScope => logPrintf
    | .waits more =>
        List.replicate (more + 1) (.call .conditionWait) ++
          if build.debug then logPrintf else []

/-- `mutator_wait_for_gc_far_mem`. -/
def mutatorWaitForGcFarMem : Trace := logPrintf

/-- The guard of the local allocators: `gc_check` after a refill. -/
def allocateGuard (gcCheck : Trace) (refilled : Bool) : Trace :=
  (if refilled then gcCheck else []) ++ [.enable]

/-- The loop of `allocate_local_object`; `none` is a refill that succeeds and
`some` the wait after one that does not. -/
def retryAllocateLocal (build : Build) (gcCheck : Trace) : Bool → List (Option WaitPath) → Trace
  | refilled, [] => allocateGuard gcCheck refilled
  | _, none :: refills => regionSpin ++ retryAllocateLocal build gcCheck true refills
  | _, some wait :: refills =>
      regionSpin ++ [.enable] ++ mutatorWaitForGcCache build wait ++
        if wait.exits then []
        else .disable :: retryAllocateLocal build gcCheck true refills

/-- `allocate_local_object`. -/
def allocateLocalObject (build : Build) (gcCheck : Trace)
    (refills : List (Option WaitPath)) : Trace :=
  .disable :: retryAllocateLocal build gcCheck false refills

/-- `allocate_local_object_nb`, whose last refill may fail. -/
def allocateLocalObjectNb (gcCheck : Trace) (refills : ℕ) : Trace :=
  .disable :: ((List.replicate refills regionSpin).flatten ++
    allocateGuard gcCheck (refills != 0))

/-- The loop of `allocate_remote_object`; `true` is a refill that succeeds. -/
def retryAllocateFarMem : List Bool → Trace
  | [] => [.enable]
  | true :: refills => regionSpin ++ retryAllocateFarMem refills
  | false :: refills =>
      regionSpin ++ [.enable] ++ mutatorWaitForGcFarMem ++ .disable ::
        retryAllocateFarMem refills

/-- `allocate_remote_object`. -/
def allocateRemoteObject (refills : List Bool) : Trace :=
  .disable :: retryAllocateFarMem refills

/-! ## The discipline -/

/-- A path through one of the functions. -/
inductive Path
  | gcCache (path : GcPath)
  | allocateLocalObject (refills : List (Option WaitPath))
  | allocateLocalObjectNb (refills : ℕ)
  | allocateRemoteObject (refills : List Bool)
  | mutatorWaitForGcCache (path : WaitPath)

namespace Path

def trace (build : Build) (gcCheck : Trace) : Path → Trace
  | .gcCache path => Preemption.gcCache build path
  | .allocateLocalObject refills => Preemption.allocateLocalObject build gcCheck refills
  | .allocateLocalObjectNb refills => Preemption.allocateLocalObjectNb gcCheck refills
  | .allocateRemoteObject refills => Preemption.allocateRemoteObject refills
  | .mutatorWaitForGcCache path => Preemption.mutatorWaitForGcCache build path

/-- The collector runs and its first round finds no from-region. -/
def firstFindsNone : Path → Bool
  | .gcCache path => path.firstFindsNone
  | _ => false

/-- The count is never negative, every yielding or blocking call is made at zero,
and it is zero again at the end. -/
structure Disciplined (build : Build) (gcCheck : Trace) (path : Path) : Prop where
  sane : SaneFrom 0 (path.trace build gcCheck)
  settled : depth (path.trace build gcCheck) = 0

end Path

variable {build : Build} {gcCheck : Trace} {path : Path}

/-! ## The collector keeps it from the first marking on -/

theorem balanced_logPrintf : Balanced logPrintf := fun _ => rfl

theorem balanced_regionSpin : Balanced regionSpin := fun _ => rfl

theorem balanced_startPrioritizing (ioctlFails : Bool) :
    Balanced (startPrioritizing ioctlFails) :=
  Library.Nesting.balanced_ite _ balanced_logPrintf

theorem balanced_pickFromRegions (regions : ℕ) (lastPopFails : Bool) :
    Balanced (pickFromRegions regions lastPopFails) :=
  (Library.Nesting.balanced_flatten_replicate
    (balanced_regionSpin.append fun _ => rfl) regions).append
      (Library.Nesting.balanced_ite _ balanced_regionSpin)

/-- Marking releases the guard, if it is still armed, before it blocks. -/
theorem follow_markFmPtrs (armed : Bool) (collection : Collection) :
    follow armed.toNat (markFmPtrs armed collection) = some 0 := by
  rw [markFmPtrs, List.append_assoc, (balanced_startPrioritizing _).follow_append]
  cases armed <;> rfl

theorem follow_waitMutatorsObservation (collection : Collection) :
    follow 0 (waitMutatorsObservation collection) = some 0 := by
  rw [waitMutatorsObservation, (balanced_startPrioritizing _).follow_append]
  exact Library.Nesting.follow_replicate_call _ _

theorem follow_writeBackRegions (collection : Collection) :
    follow 0 (writeBackRegions collection) = some 0 := by
  rw [writeBackRegions, (balanced_startPrioritizing _).follow_append]
  rfl

theorem follow_pushFreeRegions (build : Build) (collection : Collection) :
    follow 0 (pushFreeRegions build collection) = some 0 := by
  have hpushes := Library.Nesting.balanced_flatten_replicate balanced_regionSpin
    collection.regions
  have hlogs := Library.Nesting.balanced_ite (build.gcLog = true)
    (Library.Nesting.balanced_flatten_replicate balanced_logPrintf 6)
  rw [pushFreeRegions, List.append_assoc, hpushes.follow_append, List.singleton_append,
    Library.Nesting.follow_call]
  exact hlogs 0

/-- A round with from-regions leads to depth zero. -/
theorem follow_gcRounds_collected (armed : Bool) (collection : Collection)
    (rounds : List Round) :
    follow armed.toNat (gcRounds build armed (.collected collection :: rounds)) =
      follow 0 (gcRounds build false rounds) := by
  simp only [gcRounds, List.append_assoc]
  rw [(balanced_pickFromRegions _ _).follow_append,
    Library.Nesting.follow_append_of (follow_markFmPtrs armed collection),
    Library.Nesting.follow_append_of (follow_waitMutatorsObservation collection),
    Library.Nesting.follow_append_of (follow_writeBackRegions collection),
    Library.Nesting.follow_append_of (follow_pushFreeRegions build collection)]

/-- A round without one yields at the depth it starts at. -/
theorem follow_gcRounds_noneFound (start : ℕ) (armed : Bool) (rounds : List Round) :
    follow start (gcRounds build armed (.noneFound :: rounds)) =
      follow start (.call .threadYield :: gcRounds build armed rounds) := by
  simp only [gcRounds, List.append_assoc]
  rw [(balanced_pickFromRegions _ _).follow_append, balanced_logPrintf.follow_append,
    List.singleton_append]

/-- Once the guard has run, any rounds keep to depth zero. -/
theorem follow_gcRounds_released (rounds : List Round) :
    follow 0 (gcRounds build false rounds) = some 0 := by
  induction rounds with
  | nil =>
      rw [gcRounds, (Library.Nesting.balanced_ite _ balanced_logPrintf).follow_append]
      rfl
  | cons round rounds ih =>
      cases round with
      | noneFound => rw [follow_gcRounds_noneFound, Library.Nesting.follow_call, ih]
      | collected collection =>
          exact (follow_gcRounds_collected false collection rounds).trans ih

/-- With the guard armed the first round decides. -/
theorem follow_gcRounds_armed (rounds : List Round) :
    follow 1 (gcRounds build true rounds) =
      if firstFindsNone rounds then none else some 0 := by
  cases rounds with
  | nil =>
      rw [gcRounds, (Library.Nesting.balanced_ite _ balanced_logPrintf).follow_append]
      rfl
  | cons round rounds =>
      cases round with
      | noneFound => rw [follow_gcRounds_noneFound]; rfl
      | collected collection =>
          exact (follow_gcRounds_collected true collection rounds).trans
            (follow_gcRounds_released rounds)

theorem follow_gcCache (path : GcPath) :
    follow 0 (gcCache build path) = if path.firstFindsNone then none else some 0 := by
  cases path with
  | cacheNotLow => rfl
  | masterActive => rfl
  | collects rounds =>
      have hlog := Library.Nesting.balanced_ite (build.gcLog = true)
        balanced_logPrintf
      exact (hlog.follow_append 1 _).trans (follow_gcRounds_armed rounds)

/-! ## The allocators keep it -/

/-- A wait leaves the depth at zero, whether or not it exits. -/
theorem follow_mutatorWaitForGcCache (build : Build) (path : WaitPath) :
    follow 0 (mutatorWaitForGcCache build path) = some 0 := by
  cases path with
  | notAlmostEmpty => rfl
  | inDerefScope => rfl
  | waits more =>
      have hwaits : follow 0 (List.replicate (more + 1) (.call .conditionWait) ++
          if build.debug then logPrintf else []) = some 0 := by
        rw [Library.Nesting.follow_append_of
          (Library.Nesting.follow_replicate_call Call.conditionWait (more + 1))]
        exact Library.Nesting.balanced_ite _ balanced_logPrintf 0
      exact hwaits

theorem follow_allocateGuard (hgcCheck : follow 1 gcCheck = some 1) (refilled : Bool) :
    follow 1 (allocateGuard gcCheck refilled) = some 0 := by
  cases refilled with
  | true =>
      rw [allocateGuard, if_pos rfl, Library.Nesting.follow_append_of hgcCheck]
      rfl
  | false => rfl

/-- Whatever the refills, the loop is left at depth zero, by induction on them. -/
theorem follow_retryAllocateLocal (hgcCheck : follow 1 gcCheck = some 1) (refilled : Bool)
    (refills : List (Option WaitPath)) :
    follow 1 (retryAllocateLocal build gcCheck refilled refills) = some 0 := by
  induction refills generalizing refilled with
  | nil => exact follow_allocateGuard hgcCheck refilled
  | cons refill refills ih =>
      cases refill with
      | none => rw [retryAllocateLocal, balanced_regionSpin.follow_append, ih]
      | some wait =>
          rw [retryAllocateLocal, List.append_assoc, List.append_assoc,
            balanced_regionSpin.follow_append, List.singleton_append,
            Library.Nesting.follow_enable,
            Library.Nesting.follow_append_of (follow_mutatorWaitForGcCache build wait)]
          split
          · rfl
          · rw [Library.Nesting.follow_disable, ih]

theorem follow_allocateLocalObjectNb (hgcCheck : follow 1 gcCheck = some 1) (refills : ℕ) :
    follow 0 (allocateLocalObjectNb gcCheck refills) = some 0 := by
  rw [allocateLocalObjectNb, Library.Nesting.follow_disable,
    (Library.Nesting.balanced_flatten_replicate balanced_regionSpin refills).follow_append,
    follow_allocateGuard hgcCheck]

theorem follow_retryAllocateFarMem (refills : List Bool) :
    follow 1 (retryAllocateFarMem refills) = some 0 := by
  induction refills with
  | nil => rfl
  | cons success refills ih =>
      cases success with
      | true => rw [retryAllocateFarMem, balanced_regionSpin.follow_append, ih]
      | false => exact ih

/-! ## Every path -/

theorem Path.follow_trace (build : Build) (hgcCheck : follow 1 gcCheck = some 1) (path : Path) :
    follow 0 (path.trace build gcCheck) = if path.firstFindsNone then none else some 0 := by
  cases path with
  | gcCache path => exact follow_gcCache path
  | allocateLocalObject refills => exact follow_retryAllocateLocal hgcCheck false refills
  | allocateLocalObjectNb refills => exact follow_allocateLocalObjectNb hgcCheck refills
  | allocateRemoteObject refills => exact follow_retryAllocateFarMem refills
  | mutatorWaitForGcCache path => exact follow_mutatorWaitForGcCache build path

/-- A path keeps the discipline exactly unless it is a collection whose first
round finds no from-region. -/
theorem disciplined_iff (build : Build) (path : Path) (hgcCheck : follow 1 gcCheck = some 1) :
    path.Disciplined build gcCheck ↔ path.firstFindsNone = false := by
  have hfollow := path.follow_trace build hgcCheck
  constructor
  · intro hdisciplined
    have hsome : (follow 0 (path.trace build gcCheck)).isSome = true :=
      Library.Nesting.isSome_follow_iff.mpr hdisciplined.sane
    by_contra hfirst
    rw [hfollow, if_pos (Bool.not_eq_false _ ▸ hfirst)] at hsome
    exact Bool.false_ne_true hsome
  · intro hfirst
    rw [hfirst, if_neg Bool.false_ne_true] at hfollow
    constructor
    case sane =>
      have hsome : (follow 0 (path.trace build gcCheck)).isSome = true := by
        rw [hfollow]
        rfl
      exact Library.Nesting.isSome_follow_iff.mp hsome
    case settled =>
      have hdepth := Library.Nesting.depth_of_follow hfollow
      simpa using hdepth

/-- A `gc_check` that logs, and an allocation that waits twice. -/
theorem disciplined_waits :
    (Path.allocateLocalObject [none, some (.waits 1)]).Disciplined ⟨true, true⟩ logPrintf ↔
      (Path.allocateLocalObject [none, some (.waits 1)]).firstFindsNone = false :=
  disciplined_iff ⟨true, true⟩ _ rfl

/-- The collector runs once and finds no region: it yields at depth one. -/
theorem not_disciplined_noneFound :
    ¬ (Path.gcCache (.collects [.noneFound])).Disciplined ⟨false, false⟩ logPrintf := by
  intro hdisciplined
  have hone := hdisciplined.sane.outermost
    [.call .assertPreemptEnabled, .disable, .disable, .enable, .disable, .enable]
    .threadYield _ rfl
  exact absurd hone (by decide)

end DynamicSwap.Preemption
