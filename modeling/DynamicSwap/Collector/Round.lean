import DynamicSwap.Collector.Evacuation
import DynamicSwap.Region.InFlight

/-!
# A round of the collector

`gc_cache` from the picked regions on: workers mark, the master waits for the
mutators, workers write back, and the regions are pushed to the free list.  Each
boundary of a from-region is walked once in each pass, the walks of a pass in any
order.  When a region is pushed, no pointer leads into it.
-/

namespace DynamicSwap

namespace RegionManager

/-- Only valid regions are picked from queues of valid ones. -/
theorem valid_pickLoop (manager : RegionManager) (retries : ℕ)
    (isGcable : ℕ → Region → Bool) (remaining : ℕ) (fromRegions : List Region)
    (hqueues : ∀ region ∈ manager.filled, region.isInvalid = false)
    (hfrom : ∀ region ∈ fromRegions, region.isInvalid = false) :
    ∀ region ∈ (manager.pickLoop retries isGcable remaining fromRegions).1,
      region.isInvalid = false := by
  fun_induction RegionManager.pickLoop retries isGcable remaining fromRegions manager with
  | case1 => exact hfrom
  | case2 fromRegions manager region next hpop =>
      have hperm := (picked_popUsedRegion manager retries (isGcable 0)).filled
      rw [hpop] at hperm
      have hvalid := hqueues region (hperm.subset (by simp))
      simpa [List.mem_append, or_imp, forall_and, hvalid] using hfrom
  | case3 fromRegions manager region next remaining hpop ih =>
      have hperm := (picked_popUsedRegion manager retries (isGcable (remaining + 1))).filled
      rw [hpop] at hperm
      have hvalid := hqueues region (hperm.subset (by simp))
      apply ih
      · exact fun other hother => hqueues other (hperm.subset (by simp [hother]))
      · simpa [List.mem_append, or_imp, forall_and, hvalid] using hfrom

end RegionManager

namespace Round

open Evacuation
open RegionManager (owned)
open SwapIn (aliasesOf)
open Walk (Filled Standing Task)

variable {Meta : Type}

/-- Phases 2 to 5 of a round. -/
inductive Phase
  | marking
  | waiting
  | writingBack
  | pushing (pushed : ℕ)
  deriving DecidableEq

/-- `cursors` holds the tasks of the current pass, each with the position of the
worker that has dequeued it. -/
structure State (Meta : Type) where
  heap : Heap Meta
  manager : RegionManager
  fromRegions : List Region
  phase : Phase
  cursors : List (Task × Walk.Pc)

/-- `mark` and `writeBack` are steps of the worker on a task; `migrate`, `free`
and `allocate` are mutators. -/
inductive Action
  | mark (index : ℕ)
  | finishMarking
  | migrate (addr newAddr : ℕ)
  | free (addr : ℕ)
  | allocate (core : Fin kNumCPUs) (nt : Bool) (objectSize : ℕ)
  | startWriteBack
  | writeBack (index : ℕ) (core : Fin kNumCPUs) (isNt : Slot → Bool) (almostEmpty : Bool)
  | finishWriteBack
  | push

namespace Action

/-- The mutators' actions. -/
def isMutator : Action → Bool
  | .migrate _ _ | .free _ | .allocate _ _ _ => true
  | _ => false

end Action

variable (ops : RegionOps) (pointer : FarMemPtrMeta Meta) (ring : Slot → List Slot)
variable (kHeaderSize : ℕ) (notifiers : Notifiers Meta)
variable (boundaries : Region → List Task) (localCachePtr : ℕ)

/-- The tasks that `GCParallelizer::master_fn` enqueues. -/
def tasksOf (fromRegions : List Region) : List Task :=
  fromRegions.flatMap boundaries

/-- A pass begins with every task at its left end. -/
def cursorsOf (fromRegions : List Region) : List (Task × Walk.Pc) :=
  (tasksOf boundaries fromRegions).map fun task => (task, .test task.left)

/-- No from-region contains the address. -/
def Outside (fromRegions : List Region) (addr : ℕ) : Prop :=
  ∀ region ∈ fromRegions, ¬ region.Contains addr

instance (fromRegions : List Region) (addr : ℕ) : Decidable (Outside fromRegions addr) :=
  inferInstanceAs (Decidable (∀ region ∈ fromRegions, ¬ region.Contains addr))

/-- The next position of a worker and the object that it visits. -/
def walkStep (state : State Meta) (index : ℕ) :
    Option (Task × Walk.Pc × Option Object) :=
  match state.cursors[index]? with
  | none => none
  | some (task, pc) =>
      (Walk.next kHeaderSize task.right state.heap.objects pc).map fun next => (task, next)

/-- `swap_out` with its allocation, which only a hot object gets to. -/
def swapOut (core : Fin kNumCPUs) (isNt : Slot → Bool) (almostEmpty : Bool)
    (heap : Heap Meta) (manager : RegionManager) (obj : Object) :
    Option (Heap Meta × RegionManager) :=
  let flags := SwapOut.flagsOf pointer ring ⟨isNt, almostEmpty, none⟩ heap obj.ptrAddr
  if pointer.isEvacuation (heap.metas obj.ptrAddr) && flags.hot && !flags.nt &&
      !almostEmpty then
    (manager.allocateLocalObjectNb ops core false (obj.size kHeaderSize)).map
      fun (addr, manager) =>
        (Walk.writeBack pointer ring kHeaderSize notifiers ⟨isNt, almostEmpty, addr⟩ heap
          obj, manager)
  else
    some (Walk.writeBack pointer ring kHeaderSize notifiers ⟨isNt, almostEmpty, none⟩ heap
      obj, manager)

/-- Mutators run between marking and write-back, and beside the latter. -/
def mutating (state : State Meta) : Bool :=
  state.phase == .waiting || state.phase == .writingBack

/-- The live object at an address, addressed by the pointers that it names. -/
def liveObject (heap : Heap Meta) (addr : ℕ) : Option Object :=
  (heap.objects addr).filter fun obj =>
    obj.freed = false ∧ Points pointer ring heap addr obj.ptrAddr

def step (state : State Meta) : Action → Option (State Meta)
  | .mark index =>
      if state.phase = .marking then
        (walkStep kHeaderSize state index).map fun (task, pc, visited) =>
          { state with
            heap := visited.elim state.heap (Walk.mark pointer ring state.heap)
            cursors := state.cursors.set index (task, pc) }
      else none
  | .finishMarking =>
      if state.phase = .marking ∧ ∀ cursor ∈ state.cursors, cursor.2 = .done then
        some { state with phase := .waiting }
      else none
  | .migrate addr newAddr =>
      if mutating state = true ∧ Outside state.fromRegions newAddr ∧
          newAddr < pointer.addrBound then
        match liveObject pointer ring state.heap addr with
        | none => none
        | some obj =>
            if pointer.isEvacuation (state.heap.metas obj.ptrAddr) then
              some { state with heap := Evacuation.migrate pointer ring state.heap obj newAddr }
            else none
      else none
  | .free addr =>
      if mutating state = true then
        (liveObject pointer ring state.heap addr).map fun obj =>
          { state with heap := Evacuation.free pointer ring state.heap addr obj }
      else none
  | .allocate core nt objectSize =>
      (state.manager.allocateLocalObjectNb ops core nt objectSize).map fun result =>
        { state with manager := result.2 }
  | .startWriteBack =>
      if state.phase = .waiting then
        some { state with
          phase := .writingBack
          cursors := cursorsOf boundaries state.fromRegions }
      else none
  | .writeBack index core isNt almostEmpty =>
      if state.phase = .writingBack then
        match walkStep kHeaderSize state index with
        | none => none
        | some (task, pc, none) =>
            some { state with cursors := state.cursors.set index (task, pc) }
        | some (task, pc, some obj) =>
            (swapOut ops pointer ring kHeaderSize notifiers core isNt almostEmpty
              state.heap state.manager obj).map fun (heap, manager) =>
                { state with
                  heap := heap
                  manager := manager
                  cursors := state.cursors.set index (task, pc) }
      else none
  | .finishWriteBack =>
      if state.phase = .writingBack ∧ ∀ cursor ∈ state.cursors, cursor.2 = .done then
        some { state with phase := .pushing 0 }
      else none
  | .push =>
      match state.phase with
      | .pushing pushed =>
          match state.fromRegions[pushed]? with
          | none => none
          | some region =>
              (state.manager.pushFreeRegion ops region).map fun manager =>
                { state with
                  manager := manager
                  fromRegions := state.fromRegions.set pushed (ops.moved region)
                  phase := .pushing (pushed + 1) }
      | _ => none

/-- A manager of distinct slices of the local cache, all of them addressable. -/
structure Usable (manager : RegionManager) : Prop where
  cores : manager.HasCores
  queues : ∀ region ∈ manager.queued, region.isInvalid = false
  indices : ((owned manager.regions).map Prod.fst).Nodup
  slices : ∀ identity ∈ owned manager.regions,
    identity.2 = some (localCachePtr + identity.1.toNat * Region.kSize)
  addressable : ∀ identity ∈ owned manager.regions, ∀ bufPtr ∈ identity.2,
    bufPtr + Region.kSize ≤ pointer.addrBound

/-- Each boundary lies in its region and is filled with objects, the boundaries
do not overlap, and pointers into the regions address these objects, each the
one that its pointers address. -/
structure WellPicked (starts : Task → List ℕ) (heap : Heap Meta)
    (fromRegions : List Region) : Prop where
  filled : ∀ task ∈ tasksOf boundaries fromRegions,
    Filled kHeaderSize task.right heap.objects task.left (starts task)
  inside : ∀ region ∈ fromRegions, ∀ task ∈ boundaries region, ∀ bufPtr ∈ region.bufPtr,
    bufPtr ≤ task.left ∧ task.right ≤ bufPtr + Region.kSize
  apart : (tasksOf boundaries fromRegions).Pairwise fun first second =>
    first.right ≤ second.left ∨ second.right ≤ first.left
  fresh : ∀ start ∈ (tasksOf boundaries fromRegions).flatMap starts,
    Fresh pointer ring heap start
  covered : ∀ slot, pointer.isPresent (heap.metas slot) = true →
    ¬ Outside fromRegions (pointer.getObjectAddr (heap.metas slot)) →
      pointer.getObjectAddr (heap.metas slot) ∈
        (tasksOf boundaries fromRegions).flatMap starts

/-- After `pick_from_regions`. -/
structure Begins (state : State Meta) : Prop where
  picked : ∃ manager retries isGcable numRegions,
    Usable pointer localCachePtr manager ∧
      manager.pickFromRegions retries isGcable numRegions =
        (state.fromRegions, state.manager)
  phase : state.phase = .marking
  cursors : state.cursors = cursorsOf boundaries state.fromRegions
  wellPicked : ∃ starts,
    WellPicked pointer ring kHeaderSize boundaries starts state.heap state.fromRegions

def machine : Library.Machine (State Meta) Action where
  initial := Begins pointer ring kHeaderSize boundaries localCachePtr
  step := step ops pointer ring kHeaderSize notifiers boundaries

/-! ## Invariant -/

/-- Where the objects of the from-regions start. -/
def startsOf (starts : Task → List ℕ) (picked : List Region) : List ℕ :=
  (tasksOf boundaries picked).flatMap starts

/-- What a round cannot change before it pushes. -/
structure Setting (starts : Task → List ℕ) (picked : List Region)
    (total : Multiset (BitVec 32 × Option ℕ)) : Prop where
  nodup : (startsOf boundaries starts picked).Nodup
  inside : ∀ start ∈ startsOf boundaries starts picked, ¬ Outside picked start
  valid : ∀ region ∈ picked, region.isInvalid = false
  indices : (total.map Prod.fst).Nodup
  slices : ∀ identity ∈ total,
    identity.2 = some (localCachePtr + identity.1.toNat * Region.kSize)
  addressable : ∀ identity ∈ total, ∀ bufPtr ∈ identity.2,
    bufPtr + Region.kSize ≤ pointer.addrBound

/-- What holds until the regions are pushed. -/
structure Active (starts : Task → List ℕ) (picked : List Region)
    (total : Multiset (BitVec 32 × Option ℕ)) (state : State Meta) : Prop where
  fromRegions : state.fromRegions = picked
  cores : state.manager.HasCores
  conserved : owned state.manager.regions + owned picked = total
  covered : ∀ slot, pointer.isPresent (state.heap.metas slot) = true →
    ¬ Outside picked (pointer.getObjectAddr (state.heap.metas slot)) →
      pointer.getObjectAddr (state.heap.metas slot) ∈ startsOf boundaries starts picked
  filled : ∀ task ∈ tasksOf boundaries picked,
    Filled kHeaderSize task.right state.heap.objects task.left (starts task)

/-- The walks of a pass: objects that a worker has passed and those ahead of it. -/
structure Walks (starts : Task → List ℕ) (picked : List Region)
    (passed ahead : Heap Meta → ℕ → Prop) (heap : Heap Meta)
    (cursors : List (Task × Walk.Pc)) : Prop where
  tasks : cursors.map Prod.fst = tasksOf boundaries picked
  standing : ∀ (index : ℕ) task pc, cursors[index]? = some (task, pc) →
    Standing kHeaderSize task.right heap.objects (starts task) (passed heap)
      (ahead heap) pc

/-- No local pointer leads into the regions that are still to be pushed. -/
def Vacated (heap : Heap Meta) (regions : List Region) : Prop :=
  ∀ region ∈ regions, ∀ slot, pointer.isPresent (heap.metas slot) = true →
    ¬ region.Contains (pointer.getObjectAddr (heap.metas slot))

def Inv (starts : Task → List ℕ) (picked : List Region)
    (total : Multiset (BitVec 32 × Option ℕ)) (state : State Meta) : Prop :=
  match state.phase with
  | .marking =>
      Active pointer kHeaderSize boundaries starts picked total state ∧
        Walks kHeaderSize boundaries starts picked (Marked pointer ring)
          (Fresh pointer ring) state.heap state.cursors
  | .waiting =>
      Active pointer kHeaderSize boundaries starts picked total state ∧
        ∀ start ∈ startsOf boundaries starts picked, Ready pointer ring state.heap start
  | .writingBack =>
      Active pointer kHeaderSize boundaries starts picked total state ∧
        Walks kHeaderSize boundaries starts picked (Unaddressed pointer)
          (Ready pointer ring) state.heap state.cursors
  | .pushing pushed => Vacated pointer state.heap (state.fromRegions.drop pushed)

variable {ops pointer ring kHeaderSize notifiers boundaries localCachePtr}
variable {starts : Task → List ℕ} {picked : List Region}
variable {total : Multiset (BitVec 32 × Option ℕ)}
variable {state next : State Meta} {heap after : Heap Meta}
variable {passed ahead : Heap Meta → ℕ → Prop} {cursors : List (Task × Walk.Pc)}
variable {index cur : ℕ} {task : Task} {pc nextPc : Walk.Pc} {obj : Object}

theorem mem_startsOf {start : ℕ} :
    start ∈ startsOf boundaries starts picked ↔
      ∃ task ∈ tasksOf boundaries picked, start ∈ starts task :=
  List.mem_flatMap

/-- The sizes of the objects in the from-regions stay. -/
def KeepsSizes (kHeaderSize : ℕ) (all : List ℕ) (heap after : Heap Meta) : Prop :=
  ∀ start ∈ all, ∀ obj, heap.objects start = some obj →
    ∃ obj', after.objects start = some obj' ∧
      obj'.size kHeaderSize = obj.size kHeaderSize

theorem keepsSizes_of_objects {all : List ℕ}
    (hobjects : ∀ start ∈ all, after.objects start = heap.objects start) :
    KeepsSizes kHeaderSize all heap after :=
  fun start hstart obj hobj => ⟨obj, (hobjects start hstart).trans hobj, rfl⟩

namespace Walks

variable (hwalks : Walks kHeaderSize boundaries starts picked passed ahead heap cursors)

include hwalks

theorem task_mem (hcursor : cursors[index]? = some (task, pc)) :
    task ∈ tasksOf boundaries picked := by
  rw [← hwalks.tasks]
  exact List.mem_map_of_mem (List.mem_of_getElem? hcursor)

theorem mem_startsOf (hcursor : cursors[index]? = some (task, pc))
    (hcur : cur ∈ starts task) : cur ∈ startsOf boundaries starts picked :=
  Round.mem_startsOf.mpr ⟨task, hwalks.task_mem hcursor, hcur⟩

theorem tasks_set (hcursor : cursors[index]? = some (task, pc)) :
    (cursors.set index (task, nextPc)).map Prod.fst = tasksOf boundaries picked := by
  have hlookup : (cursors.map Prod.fst)[index]? = some task := by simp [hcursor]
  obtain ⟨hindex, hself⟩ := List.getElem?_eq_some_iff.mp hlookup
  rw [List.map_set, ← hwalks.tasks]
  dsimp only
  rw [← hself, List.set_getElem_self]

/-- Different tasks have different objects. -/
theorem notMem_starts (hnodup : (startsOf boundaries starts picked).Nodup)
    {other : ℕ} {otherTask : Task} {otherPc : Walk.Pc}
    (hcursor : cursors[index]? = some (task, pc))
    (hother : cursors[other]? = some (otherTask, otherPc)) (hne : other ≠ index)
    (hcur : cur ∈ starts task) : cur ∉ starts otherTask := by
  rw [startsOf, ← hwalks.tasks, List.nodup_flatMap] at hnodup
  have hpairwise := List.pairwise_iff_getElem.mp hnodup.2
  obtain ⟨hindex, hself⟩ := List.getElem?_eq_some_iff.mp hcursor
  obtain ⟨hbound, hthere⟩ := List.getElem?_eq_some_iff.mp hother
  intro hmem
  rcases Nat.lt_or_gt_of_ne hne with hlt | hlt
  · have hdisjoint := hpairwise other index (by simpa using hbound)
      (by simpa using hindex) hlt
    simp only [List.getElem_map, hself, hthere, Function.onFun] at hdisjoint
    exact hdisjoint hmem hcur
  · have hdisjoint := hpairwise index other (by simpa using hindex)
      (by simpa using hbound) hlt
    simp only [List.getElem_map, hself, hthere, Function.onFun] at hdisjoint
    exact hdisjoint hcur hmem

/-- A worker's step without a visit. -/
theorem advance (hcursor : cursors[index]? = some (task, pc))
    (hnext : Walk.next kHeaderSize task.right heap.objects pc = some (nextPc, none))
    (hfreed : ∀ start, ahead heap start → ∀ obj, heap.objects start = some obj →
      obj.freed = true → passed heap start) :
    Walks kHeaderSize boundaries starts picked passed ahead heap
      (cursors.set index (task, nextPc)) where
  tasks := hwalks.tasks_set hcursor
  standing := by
    intro other otherTask otherPc hother
    rw [List.getElem?_set] at hother
    split at hother
    · rename_i heq
      split at hother
      · cases hother
        exact (hwalks.standing index task pc hcursor).next
          (fun start _ => hfreed start) hnext
      · cases hother
    · exact hwalks.standing other otherTask otherPc hother

/-- A worker's visit of the object at `cur`. -/
theorem visit (hnodup : (startsOf boundaries starts picked).Nodup)
    (hcursor : cursors[index]? = some (task, .locked cur)) (hcur : cur ∈ starts task)
    (hsizes : KeepsSizes kHeaderSize (startsOf boundaries starts picked) heap after)
    (hself : passed after cur)
    (hpassed : ∀ start ∈ startsOf boundaries starts picked, start ≠ cur →
      passed heap start → passed after start)
    (hahead : ∀ start ∈ startsOf boundaries starts picked, start ≠ cur →
      ahead heap start → ahead after start) :
    Walks kHeaderSize boundaries starts picked passed ahead after
      (cursors.set index (task, .advance cur)) where
  tasks := hwalks.tasks_set hcursor
  standing := by
    intro other otherTask otherPc hother
    rw [List.getElem?_set] at hother
    split at hother
    · rename_i heq
      split at hother
      · cases hother
        have hmem : ∀ start ∈ starts task, start ∈ startsOf boundaries starts picked :=
          fun start hstart => hwalks.mem_startsOf hcursor hstart
        apply (hwalks.standing index task _ hcursor).visit
        · exact (List.nodup_flatMap.mp hnodup).1 task (hwalks.task_mem hcursor)
        · exact fun start hstart => hsizes start (hmem start hstart)
        · exact hself
        · exact fun start hstart => hpassed start (hmem start hstart)
        · exact fun start hstart => hahead start (hmem start hstart)
      · cases hother
    · rename_i hne
      have hmem : ∀ start ∈ starts otherTask,
          start ∈ startsOf boundaries starts picked ∧ start ≠ cur := by
        intro start hstart
        constructor
        · exact hwalks.mem_startsOf hother hstart
        · rintro rfl
          exact hwalks.notMem_starts hnodup hcursor hother (Ne.symm hne) hcur hstart
      apply (hwalks.standing other otherTask otherPc hother).mono
      · exact fun start hstart => hsizes start (hmem start hstart).1
      · exact fun start hstart => hpassed start (hmem start hstart).1 (hmem start hstart).2
      · exact fun start hstart => hahead start (hmem start hstart).1 (hmem start hstart).2

/-- A mutator's operation. -/
theorem mono (hsizes : KeepsSizes kHeaderSize (startsOf boundaries starts picked) heap after)
    (hpassed : ∀ start ∈ startsOf boundaries starts picked,
      passed heap start → passed after start)
    (hahead : ∀ start ∈ startsOf boundaries starts picked,
      ahead heap start → ahead after start) :
    Walks kHeaderSize boundaries starts picked passed ahead after cursors where
  tasks := hwalks.tasks
  standing := by
    intro index task pc hcursor
    have hmem : ∀ start ∈ starts task, start ∈ startsOf boundaries starts picked :=
      fun start hstart => hwalks.mem_startsOf hcursor hstart
    apply (hwalks.standing index task pc hcursor).mono
    · exact fun start hstart => hsizes start (hmem start hstart)
    · exact fun start hstart => hpassed start (hmem start hstart)
    · exact fun start hstart => hahead start (hmem start hstart)

theorem finished (hdone : ∀ cursor ∈ cursors, cursor.2 = .done) :
    ∀ start ∈ startsOf boundaries starts picked, passed heap start := by
  intro start hstart
  obtain ⟨task, htask, hmem⟩ := Round.mem_startsOf.mp hstart
  rw [← hwalks.tasks] at htask
  obtain ⟨⟨task, pc⟩, hcursor, rfl⟩ := List.mem_map.mp htask
  obtain ⟨index, hindex⟩ := List.mem_iff_getElem?.mp hcursor
  have hpc : pc = .done := hdone _ hcursor
  subst hpc
  exact hwalks.standing index task .done hindex start hmem

omit hwalks in
theorem of_start
    (hfilled : ∀ task ∈ tasksOf boundaries picked,
      Filled kHeaderSize task.right heap.objects task.left (starts task))
    (hahead : ∀ start ∈ startsOf boundaries starts picked, ahead heap start) :
    Walks kHeaderSize boundaries starts picked passed ahead heap
      (cursorsOf boundaries picked) where
  tasks := by simp [cursorsOf, Function.comp_def]
  standing := by
    intro index task pc hcursor
    obtain ⟨other, htask, heq⟩ := List.mem_map.mp (List.mem_of_getElem? hcursor)
    cases heq
    apply Standing.start (hfilled task htask)
    exact fun start hstart => hahead start (Round.mem_startsOf.mpr ⟨task, htask, hstart⟩)

end Walks

/-! ## Addresses outside the from-regions -/

/-- An allocated object lies in no from-region: its slice of the cache is the
manager's. -/
theorem Setting.outside {manager : RegionManager} {addr size : ℕ}
    (hsetting : Setting pointer boundaries localCachePtr starts picked total)
    (hconserved : owned manager.regions + owned picked = total) (hsize : 0 < size)
    (hinside : manager.InOwned addr size) :
    addr < pointer.addrBound ∧ Outside picked addr := by
  obtain ⟨identity, hidentity, hfits⟩ := hinside
  have hmem : identity ∈ total := by
    rw [← hconserved]
    exact Multiset.mem_add.mpr (.inl hidentity)
  have hslice := hsetting.slices identity hmem
  obtain ⟨hleft, hright⟩ := hfits _ hslice
  constructor
  · have hbound := hsetting.addressable identity hmem _ hslice
    omega
  · intro region hregion hcontains
    obtain ⟨bufPtr, hbufPtr, hlower, hupper⟩ := hcontains
    have hpicked : region.identity ∈ owned picked :=
      RegionManager.mem_owned.mpr ⟨region, hregion, hsetting.valid region hregion, rfl⟩
    have hother := hsetting.slices region.identity
      (hconserved ▸ Multiset.mem_add.mpr (.inr hpicked))
    have hbuffer : bufPtr = localCachePtr + region.regionIdx.toNat * Region.kSize := by
      rw [Region.identity, Option.mem_def.mp hbufPtr, Option.some.injEq] at hother
      exact hother
    have hsame : identity.1 = region.regionIdx := by
      apply InFlight.eq_of_inSlice
      · exact ⟨hleft, by omega⟩
      · exact ⟨hbuffer ▸ hlower, hbuffer ▸ hupper⟩
    have hindices := hsetting.indices
    rw [← hconserved, Multiset.map_add, Multiset.nodup_add] at hindices
    apply Multiset.disjoint_left.mp hindices.2.2 (Multiset.mem_map_of_mem _ hidentity)
    rw [hsame]
    exact Multiset.mem_map_of_mem Prod.fst hpicked

/-- `swap_out` is a visit whose copy, if it makes one, is in a region of the
manager. -/
theorem swapOut_eq_some {core : Fin kNumCPUs} {isNt : Slot → Bool} {almostEmpty : Bool}
    {manager last : RegionManager} (hcores : manager.HasCores)
    (hswapOut : swapOut ops pointer ring kHeaderSize notifiers core isNt almostEmpty heap
      manager obj = some (after, last)) :
    manager.Keeps last ∧ ∃ choices,
      after = Walk.writeBack pointer ring kHeaderSize notifiers choices heap obj ∧
        ∀ addr ∈ choices.newLocalObjectAddr,
          last.InOwned addr (obj.size kHeaderSize) := by
  unfold swapOut at hswapOut
  dsimp only at hswapOut
  split at hswapOut
  · rw [Option.map_eq_some_iff] at hswapOut
    obtain ⟨⟨result, allocated⟩, hallocate, heq⟩ := hswapOut
    rw [Prod.mk.injEq] at heq
    obtain ⟨rfl, rfl⟩ := heq
    obtain ⟨hkeeps, hinside⟩ := hcores.allocateLocalObjectNb hallocate
    exact ⟨hkeeps, _, rfl, hinside⟩
  · rw [Option.some.injEq, Prod.mk.injEq] at hswapOut
    obtain ⟨rfl, rfl⟩ := hswapOut
    exact ⟨⟨hcores, rfl⟩, _, rfl, by simp⟩

/-! ## Visits -/

/-- Words that a visit changes are those of local pointers into a from-region. -/
theorem inside_of_changed {landing : ℕ → Prop} {ptr slot : Slot}
    (hsetting : Setting pointer boundaries localCachePtr starts picked total)
    (hcur : cur ∈ startsOf boundaries starts picked)
    (hredirects : Redirects pointer landing (aliasesOf pointer ring heap ptr) heap after)
    (hpoints : Points pointer ring heap cur ptr)
    (hchanged : after.metas slot ≠ heap.metas slot) :
    pointer.isPresent (heap.metas slot) = true ∧
      ¬ Outside picked (pointer.getObjectAddr (heap.metas slot)) := by
  have hslot : slot ∈ aliasesOf pointer ring heap ptr := by
    by_contra hslot
    exact hchanged (hredirects.others slot hslot)
  obtain ⟨hpresent, haddr⟩ := hpoints slot hslot
  rw [haddr]
  exact ⟨hpresent, hsetting.inside cur hcur⟩

/-- The marker's visit. -/
theorem mark_visit
    (hsetting : Setting pointer boundaries localCachePtr starts picked total)
    (hwalks : Walks kHeaderSize boundaries starts picked (Marked pointer ring)
      (Fresh pointer ring) heap cursors)
    (hcursor : cursors[index]? = some (task, pc))
    (hnext : Walk.next kHeaderSize task.right heap.objects pc = some (nextPc, some obj)) :
    ∃ cur ∈ startsOf boundaries starts picked,
      Redirects pointer (· = cur) (aliasesOf pointer ring heap obj.ptrAddr) heap
          (Walk.mark pointer ring heap obj) ∧
        Points pointer ring heap cur obj.ptrAddr ∧
        Walks kHeaderSize boundaries starts picked (Marked pointer ring)
          (Fresh pointer ring) (Walk.mark pointer ring heap obj)
          (cursors.set index (task, nextPc)) := by
  obtain ⟨cur, rfl, rfl, hcur, hfresh, hobj, hlive⟩ :=
    (hwalks.standing index task pc hcursor).visits hnext
  have howned := (hfresh obj hobj).2 hlive
  have hredirects := howned.redirects_mark
  have hobjects : ∀ start, (Walk.mark pointer ring heap obj).objects start =
      heap.objects start := by simp [Walk.mark]
  use cur, hwalks.mem_startsOf hcursor hcur, hredirects, howned.points
  apply hwalks.visit hsetting.nodup hcursor hcur
  · exact keepsSizes_of_objects fun start _ => hobjects start
  · exact howned.marked_mark hobj hlive
  · exact fun start _ hne hmarked =>
      hmarked.redirects hredirects howned.points hne hne (hobjects start)
  · exact fun start _ hne hfresh =>
      hfresh.redirects hredirects howned.points hne hne (hobjects start)

/-- The write-backer's visit: nothing at a header left behind, otherwise the
object's pointers leave the from-regions. -/
theorem writeBack_visit {choices : SwapOutChoices}
    (hsetting : Setting pointer boundaries localCachePtr starts picked total)
    (hconfined : Confined pointer ring notifiers)
    (hwalks : Walks kHeaderSize boundaries starts picked (Unaddressed pointer)
      (Ready pointer ring) heap cursors)
    (hcursor : cursors[index]? = some (task, pc))
    (hnext : Walk.next kHeaderSize task.right heap.objects pc = some (nextPc, some obj))
    (hchoices : ∀ addr ∈ choices.newLocalObjectAddr,
      addr < pointer.addrBound ∧ Outside picked addr) :
    ∃ cur ∈ startsOf boundaries starts picked,
      (Walk.writeBack pointer ring kHeaderSize notifiers choices heap obj = heap ∨
        Redirects pointer (Outside picked) (aliasesOf pointer ring heap obj.ptrAddr) heap
            (Walk.writeBack pointer ring kHeaderSize notifiers choices heap obj) ∧
          Points pointer ring heap cur obj.ptrAddr) ∧
        (∀ start ∈ startsOf boundaries starts picked,
          (Walk.writeBack pointer ring kHeaderSize notifiers choices heap obj).objects
            start = heap.objects start) ∧
        Walks kHeaderSize boundaries starts picked (Unaddressed pointer)
          (Ready pointer ring)
          (Walk.writeBack pointer ring kHeaderSize notifiers choices heap obj)
          (cursors.set index (task, nextPc)) := by
  obtain ⟨cur, rfl, rfl, hcur, hready, hobj, hlive⟩ :=
    (hwalks.standing index task pc hcursor).visits hnext
  have hmem := hwalks.mem_startsOf hcursor hcur
  have hobjects : ∀ start ∈ startsOf boundaries starts picked,
      (Walk.writeBack pointer ring kHeaderSize notifiers choices heap obj).objects start =
        heap.objects start := fun start hstart =>
    objects_swapOut hconfined fun hcopy =>
      hsetting.inside start hstart (hchoices start hcopy).2
  rcases (hready obj hobj).2 hlive with ⟨howned, hevacuating⟩ | ⟨hleft, hcleared⟩
  · have hredirects : Redirects pointer (Outside picked)
        (aliasesOf pointer ring heap obj.ptrAddr) heap
        (Walk.writeBack pointer ring kHeaderSize notifiers choices heap obj) :=
      howned.redirects_swapOut hconfined (hevacuating _ howned.named) hchoices
    refine ⟨cur, hmem, .inr ⟨hredirects, howned.points⟩, hobjects, ?_⟩
    apply hwalks.visit hsetting.nodup hcursor hcur (keepsSizes_of_objects hobjects)
    · exact howned.unaddressed hredirects (hsetting.inside cur hmem)
    · exact fun start hstart _ hunaddressed =>
        hunaddressed.redirects hredirects (hsetting.inside start hstart)
    · exact fun start hstart hne hready =>
        hready.redirects hredirects howned.points hne (hsetting.inside start hstart)
          (hobjects start hstart) fun slot hslot => .inl (hevacuating slot hslot)
  · have hkept := Walk.writeBack_of_cleared pointer ring kHeaderSize notifiers choices
      hcleared
    refine ⟨cur, hmem, .inl hkept, hobjects, ?_⟩
    rw [hkept]
    exact hwalks.visit hsetting.nodup hcursor hcur (keepsSizes_of_objects fun _ _ => rfl)
      hleft (fun _ _ _ hunaddressed => hunaddressed) fun _ _ _ hready => hready

/-! ## Mutators -/

/-- `traverse` visits each alias of a ring once, the first one included. -/
structure Rings (ring : Slot → List Slot) : Prop where
  nodup : ∀ slot, (ring slot).Nodup
  self : ∀ slot, slot ∈ ring slot

theorem Rings.nodup_aliasesOf (hring : Rings ring) (pointer : FarMemPtrMeta Meta)
    (heap : Heap Meta) (ptr : Slot) :
    (aliasesOf pointer ring heap ptr).Nodup := by
  unfold aliasesOf
  split
  · exact hring.nodup ptr
  · exact List.nodup_singleton ptr

theorem Rings.mem_aliasesOf (hring : Rings ring) (pointer : FarMemPtrMeta Meta)
    (heap : Heap Meta) (ptr : Slot) :
    ptr ∈ aliasesOf pointer ring heap ptr := by
  unfold aliasesOf
  split
  · exact hring.self ptr
  · exact List.mem_singleton_self ptr

theorem liveObject_eq_some {addr : ℕ} :
    liveObject pointer ring heap addr = some obj ↔
      heap.objects addr = some obj ∧ obj.freed = false ∧
        Points pointer ring heap addr obj.ptrAddr := by
  simp [liveObject, Option.filter_eq_some_iff]

/-- A header that its pointer addresses has not been left behind. -/
theorem owned_of_points {addr : ℕ} (hring : Rings ring)
    (hready : Ready pointer ring heap addr)
    (hlive : liveObject pointer ring heap addr = some obj) :
    Owned pointer ring heap addr obj := by
  obtain ⟨hobj, hfreed, hpoints⟩ := liveObject_eq_some.mp hlive
  rcases (hready obj hobj).2 hfreed with ⟨howned, -⟩ | ⟨hleft, -⟩
  · exact howned
  · obtain ⟨hpresent, haddr⟩ := hpoints _ (hring.mem_aliasesOf pointer heap obj.ptrAddr)
    exact absurd haddr (hleft _ hpresent)

theorem Active.redirects {landing : ℕ → Prop} {slots : List Slot}
    (hactive : Active pointer kHeaderSize boundaries starts picked total state)
    (hredirects : Redirects pointer landing slots state.heap next.heap)
    (hlanding : ∀ addr, landing addr → ¬ Outside picked addr →
      addr ∈ startsOf boundaries starts picked)
    (hsizes : KeepsSizes kHeaderSize (startsOf boundaries starts picked) state.heap
      next.heap)
    (hkeeps : state.manager.Keeps next.manager)
    (hfromRegions : next.fromRegions = state.fromRegions) :
    Active pointer kHeaderSize boundaries starts picked total next where
  fromRegions := hfromRegions.trans hactive.fromRegions
  cores := hkeeps.cores
  conserved := by
    rw [hkeeps.owned]
    exact hactive.conserved
  covered := by
    intro slot hpresent hinside
    by_cases hslot : slot ∈ slots
    · exact hlanding _ (hredirects.landed slot hslot hpresent) hinside
    · rw [hredirects.others slot hslot] at hpresent hinside ⊢
      exact hactive.covered slot hpresent hinside
  filled := by
    intro task htask
    apply (hactive.filled task htask).congr
    exact fun start hstart => hsizes start (mem_startsOf.mpr ⟨task, htask, hstart⟩)

/-- The heap stays as it is. -/
theorem Active.congr
    (hactive : Active pointer kHeaderSize boundaries starts picked total state)
    (hheap : next.heap = state.heap) (hkeeps : state.manager.Keeps next.manager)
    (hfromRegions : next.fromRegions = state.fromRegions) :
    Active pointer kHeaderSize boundaries starts picked total next := by
  apply hactive.redirects (.of_eq (Outside picked) hheap)
  · exact fun _ hlanded hinside => absurd hlanded hinside
  · exact keepsSizes_of_objects fun _ _ => by rw [hheap]
  · exact hkeeps
  · exact hfromRegions

variable (pointer ring) in
/-- Pointers of one object leave the from-regions without an evacuation bit. -/
structure Mutates (kHeaderSize : ℕ) (all : List ℕ) (picked : List Region) (addr : ℕ)
    (ptr : Slot) (heap after : Heap Meta) : Prop where
  redirects : Redirects pointer (Outside picked) (aliasesOf pointer ring heap ptr) heap
    after
  points : Points pointer ring heap addr ptr
  cleared : ∀ slot ∈ aliasesOf pointer ring heap ptr,
    pointer.isEvacuation (after.metas slot) = false
  objects : ∀ start ∈ all, start ≠ addr → after.objects start = heap.objects start
  sizes : KeepsSizes kHeaderSize all heap after
  self : addr ∈ all → Ready pointer ring heap addr → Ready pointer ring after addr

theorem Mutates.ready {all : List ℕ} {addr start : ℕ} {ptr : Slot}
    (hmutates : Mutates pointer ring kHeaderSize all picked addr ptr heap after)
    (hinside : ¬ Outside picked start) (hstart : start ∈ all)
    (hready : Ready pointer ring heap start) : Ready pointer ring after start := by
  by_cases hne : start = addr
  · subst hne
    exact hmutates.self hstart hready
  · exact hready.redirects hmutates.redirects hmutates.points hne hinside
      (hmutates.objects start hstart hne) fun slot hslot => .inr (hmutates.cleared slot hslot)

theorem mutates_migrate {addr newAddr : ℕ} (hring : Rings ring)
    (hsetting : Setting pointer boundaries localCachePtr starts picked total)
    (hlive : liveObject pointer ring heap addr = some obj)
    (houtside : Outside picked newAddr) (hbound : newAddr < pointer.addrBound) :
    Mutates pointer ring kHeaderSize (startsOf boundaries starts picked) picked addr
      obj.ptrAddr heap (migrate pointer ring heap obj newAddr) := by
  have hnodup := hring.nodup_aliasesOf pointer heap obj.ptrAddr
  obtain ⟨hobj, hfreed, hpoints⟩ := liveObject_eq_some.mp hlive
  have hredirects := redirects_migrate hnodup hpoints hbound houtside
  have hobjects : ∀ start ∈ startsOf boundaries starts picked,
      (migrate pointer ring heap obj newAddr).objects start = heap.objects start := by
    intro start hstart
    have hne : start ≠ newAddr := by
      rintro rfl
      exact hsetting.inside start hstart houtside
    rw [migrate, Heap.objects_mapMetas, Heap.objects_putObject_of_ne _ _ hne]
  constructor
  case redirects => exact hredirects
  case points => exact hpoints
  case cleared => exact fun slot hslot => isEvacuation_migrate hnodup hpoints hslot
  case objects => exact fun start hstart _ => hobjects start hstart
  case sizes => exact keepsSizes_of_objects hobjects
  case self =>
    intro haddr hready stored hstored
    have howned := owned_of_points hring hready hlive
    rw [hobjects addr haddr, hobj, Option.some.injEq] at hstored
    subst hstored
    constructor
    · exact fun hfree => absurd (hfreed.symm.trans hfree) Bool.false_ne_true
    · intro _
      right
      exact ⟨howned.unaddressed hredirects (hsetting.inside addr haddr),
        isEvacuation_migrate hnodup hpoints howned.named⟩

theorem mutates_free {addr : ℕ} (hring : Rings ring)
    (hsetting : Setting pointer boundaries localCachePtr starts picked total)
    (hlive : liveObject pointer ring heap addr = some obj) :
    Mutates pointer ring kHeaderSize (startsOf boundaries starts picked) picked addr
      obj.ptrAddr heap (free pointer ring heap addr obj) := by
  have hnodup := hring.nodup_aliasesOf pointer heap obj.ptrAddr
  obtain ⟨hobj, hfreed, hpoints⟩ := liveObject_eq_some.mp hlive
  have hredirects : Redirects pointer (Outside picked)
      (aliasesOf pointer ring heap obj.ptrAddr) heap
      (free pointer ring heap addr obj) := redirects_free hnodup
  have hself : (free pointer ring heap addr obj).objects addr =
      some { obj with freed := true } := by
    rw [free, Heap.objects_mapMetas, Heap.objects_putObject_self]
  have hobjects : ∀ start, start ≠ addr →
      (free pointer ring heap addr obj).objects start = heap.objects start := by
    intro start hne
    rw [free, Heap.objects_mapMetas, Heap.objects_putObject_of_ne _ _ hne]
  constructor
  case redirects => exact hredirects
  case points => exact hpoints
  case cleared => exact fun slot hslot => isEvacuation_free hnodup hslot
  case objects => exact fun start _ hne => hobjects start hne
  case sizes =>
    intro start _ stored hstored
    by_cases hne : start = addr
    · subst hne
      rw [hobj, Option.some.injEq] at hstored
      exact ⟨_, hself, by rw [← hstored]; rfl⟩
    · exact ⟨stored, (hobjects start hne).trans hstored, rfl⟩
  case self =>
    intro haddr hready stored hstored
    have howned := owned_of_points hring hready hlive
    rw [hself, Option.some.injEq] at hstored
    subst hstored
    constructor
    · exact fun _ => howned.unaddressed hredirects (hsetting.inside addr haddr)
    · exact fun hfree => absurd hfree.symm Bool.false_ne_true

/-! ## Steps -/

section Step

variable (hsetting : Setting pointer boundaries localCachePtr starts picked total)

theorem walkStep_eq_some {visited : Option Object} :
    walkStep kHeaderSize state index = some (task, nextPc, visited) ↔
      ∃ pc, state.cursors[index]? = some (task, pc) ∧
        Walk.next kHeaderSize task.right state.heap.objects pc =
          some (nextPc, visited) := by
  unfold walkStep
  cases hcursor : state.cursors[index]? with
  | none => simp
  | some cursor =>
      obtain ⟨there, pc⟩ := cursor
      simp only [Option.map_eq_some_iff, Prod.mk.injEq, Option.some.injEq]
      constructor
      · rintro ⟨_, hnext, rfl, rfl⟩
        exact ⟨pc, ⟨rfl, rfl⟩, hnext⟩
      · rintro ⟨_, ⟨rfl, rfl⟩, hnext⟩
        exact ⟨_, hnext, rfl, rfl⟩

include hsetting

theorem Inv.mark
    (hinv : Inv pointer ring kHeaderSize boundaries starts picked total state)
    (hstep : step ops pointer ring kHeaderSize notifiers boundaries state (.mark index) =
      some next) :
    Inv pointer ring kHeaderSize boundaries starts picked total next ∧
      ∀ slot, next.heap.metas slot ≠ state.heap.metas slot →
        pointer.isPresent (state.heap.metas slot) = true ∧
          ¬ Outside state.fromRegions (pointer.getObjectAddr (state.heap.metas slot)) := by
  simp only [step, Option.ite_none_right_eq_some, Option.map_eq_some_iff] at hstep
  obtain ⟨hphase, ⟨task, nextPc, visited⟩, hwalk, rfl⟩ := hstep
  obtain ⟨pc, hcursor, hnext⟩ := walkStep_eq_some.mp hwalk
  simp only [Inv, hphase] at hinv ⊢
  obtain ⟨hactive, hwalks⟩ := hinv
  cases visited with
  | none =>
      constructor
      · constructor
        · exact hactive.congr rfl ⟨hactive.cores, rfl⟩ rfl
        · exact hwalks.advance hcursor hnext fun start hfresh obj hobj hfree =>
            fun stored hstored => by
              have hsame : stored = obj := by
                rw [hobj, Option.some.injEq] at hstored
                exact hstored.symm
              subst hsame
              exact ⟨(hfresh stored hobj).1,
                fun hlive => absurd (hlive.symm.trans hfree) Bool.false_ne_true⟩
      · exact fun slot hchanged => absurd rfl hchanged
  | some obj =>
      obtain ⟨cur, hcur, hredirects, hpoints, hvisited⟩ :=
        mark_visit hsetting hwalks hcursor hnext
      constructor
      · constructor
        · apply hactive.redirects hredirects
          · rintro _ rfl _
            exact hcur
          · exact keepsSizes_of_objects fun start _ => by simp [Walk.mark]
          · exact ⟨hactive.cores, rfl⟩
          · rfl
        · exact hvisited
      · intro slot hchanged
        rw [hactive.fromRegions]
        exact inside_of_changed hsetting hcur hredirects hpoints hchanged

theorem Inv.writeBack {core : Fin kNumCPUs} {isNt : Slot → Bool} {almostEmpty : Bool}
    (hconfined : Confined pointer ring notifiers)
    (hinv : Inv pointer ring kHeaderSize boundaries starts picked total state)
    (hstep : step ops pointer ring kHeaderSize notifiers boundaries state
      (.writeBack index core isNt almostEmpty) = some next) :
    Inv pointer ring kHeaderSize boundaries starts picked total next ∧
      ∀ slot, next.heap.metas slot ≠ state.heap.metas slot →
        pointer.isPresent (state.heap.metas slot) = true ∧
          ¬ Outside state.fromRegions (pointer.getObjectAddr (state.heap.metas slot)) := by
  simp only [step, Option.ite_none_right_eq_some] at hstep
  obtain ⟨hphase, hstep⟩ := hstep
  simp only [Inv, hphase] at hinv
  obtain ⟨hactive, hwalks⟩ := hinv
  split at hstep
  · cases hstep
  · rename_i task nextPc hwalk
    obtain ⟨pc, hcursor, hnext⟩ := walkStep_eq_some.mp hwalk
    cases hstep
    simp only [Inv, hphase]
    constructor
    · constructor
      · exact hactive.congr rfl ⟨hactive.cores, rfl⟩ rfl
      · exact hwalks.advance hcursor hnext fun start hready obj hobj hfree =>
          (hready obj hobj).1 hfree
    · exact fun slot hchanged => absurd rfl hchanged
  · rename_i task nextPc obj hwalk
    obtain ⟨pc, hcursor, hnext⟩ := walkStep_eq_some.mp hwalk
    rw [Option.map_eq_some_iff] at hstep
    obtain ⟨⟨after, last⟩, hswapOut, rfl⟩ := hstep
    obtain ⟨hkeeps, choices, rfl, hinside⟩ := swapOut_eq_some hactive.cores hswapOut
    obtain ⟨cur, rfl, -, hcur, -, hobj, -⟩ :=
      (hwalks.standing index task pc hcursor).visits hnext
    obtain ⟨stored, hstored, hsize⟩ :=
      (hactive.filled task (hwalks.task_mem hcursor)).isSome cur hcur
    rw [hobj, Option.some.injEq] at hstored
    subst hstored
    have hchoices : ∀ addr ∈ choices.newLocalObjectAddr,
        addr < pointer.addrBound ∧ Outside picked addr := fun addr haddr =>
      hsetting.outside (by rw [hkeeps.owned]; exact hactive.conserved) (by omega)
        (hinside addr haddr)
    obtain ⟨start, hstart, heffect, hobjects, hvisited⟩ :=
      writeBack_visit hsetting hconfined hwalks hcursor hnext hchoices
    simp only [Inv, hphase]
    constructor
    · constructor
      · rcases heffect with heq | ⟨hredirects, -⟩
        · exact hactive.congr heq hkeeps rfl
        · exact hactive.redirects hredirects (fun _ hlanded hwithin => absurd hlanded hwithin)
            (keepsSizes_of_objects hobjects) hkeeps rfl
      · exact hvisited
    · intro slot hchanged
      rw [hactive.fromRegions]
      rcases heffect with heq | ⟨hredirects, hpoints⟩
      · exact absurd (congrArg (fun heap => heap.metas slot) heq) hchanged
      · exact inside_of_changed hsetting hstart hredirects hpoints hchanged

theorem Inv.mutate {addr : ℕ} {ptr : Slot}
    (hinv : Inv pointer ring kHeaderSize boundaries starts picked total state)
    (hmutating : mutating state = true)
    (hmutates : Mutates pointer ring kHeaderSize (startsOf boundaries starts picked) picked
      addr ptr state.heap after) :
    Inv pointer ring kHeaderSize boundaries starts picked total
      { state with heap := after } := by
  have hactive : ∀ phase,
      Active pointer kHeaderSize boundaries starts picked total state →
        Active pointer kHeaderSize boundaries starts picked total
          { state with heap := after, phase := phase } := fun _ hactive =>
    hactive.redirects hmutates.redirects (fun _ hlanded hwithin => absurd hlanded hwithin)
      hmutates.sizes ⟨hactive.cores, rfl⟩ rfl
  have hready : ∀ start ∈ startsOf boundaries starts picked,
      Ready pointer ring state.heap start → Ready pointer ring after start :=
    fun start hstart => hmutates.ready (hsetting.inside start hstart) hstart
  unfold mutating at hmutating
  cases hphase : state.phase with
  | waiting =>
      simp only [Inv, hphase] at hinv ⊢
      exact ⟨hactive _ hinv.1, fun start hstart => hready start hstart (hinv.2 start hstart)⟩
  | writingBack =>
      simp only [Inv, hphase] at hinv ⊢
      constructor
      · exact hactive _ hinv.1
      · apply hinv.2.mono hmutates.sizes
        · exact fun start hstart hunaddressed =>
            hunaddressed.redirects hmutates.redirects (hsetting.inside start hstart)
        · exact hready
  | marking | pushing => simp [hphase] at hmutating

omit hsetting in
theorem Inv.allocate {core : Fin kNumCPUs} {nt : Bool} {objectSize : ℕ}
    (hinv : Inv pointer ring kHeaderSize boundaries starts picked total state)
    (hstep : step ops pointer ring kHeaderSize notifiers boundaries state
      (.allocate core nt objectSize) = some next) :
    Inv pointer ring kHeaderSize boundaries starts picked total next := by
  simp only [step, Option.map_eq_some_iff] at hstep
  obtain ⟨⟨result, manager⟩, hallocate, rfl⟩ := hstep
  have hactive : ∀ phase,
      Active pointer kHeaderSize boundaries starts picked total state →
        Active pointer kHeaderSize boundaries starts picked total
          { state with manager := manager, phase := phase } := fun _ hactive =>
    hactive.congr rfl (hactive.cores.allocateLocalObjectNb hallocate).1 rfl
  cases hphase : state.phase with
  | marking =>
      simp only [Inv, hphase] at hinv ⊢
      exact ⟨hactive _ hinv.1, hinv.2⟩
  | waiting =>
      simp only [Inv, hphase] at hinv ⊢
      exact ⟨hactive _ hinv.1, hinv.2⟩
  | writingBack =>
      simp only [Inv, hphase] at hinv ⊢
      exact ⟨hactive _ hinv.1, hinv.2⟩
  | pushing pushed =>
      simp only [Inv, hphase] at hinv ⊢
      exact hinv

omit hsetting in
/-- Once every walk is through, no pointer leads into a from-region. -/
theorem vacated_of_finished
    (hactive : Active pointer kHeaderSize boundaries starts picked total state)
    (hunaddressed : ∀ start ∈ startsOf boundaries starts picked,
      Unaddressed pointer state.heap start) :
    Vacated pointer state.heap state.fromRegions := by
  intro region hregion slot hpresent hcontains
  rw [hactive.fromRegions] at hregion
  have hstart := hactive.covered slot hpresent fun houtside => houtside region hregion hcontains
  exact hunaddressed _ hstart slot hpresent rfl

theorem Inv.step {action : Action} (hring : Rings ring)
    (hconfined : Confined pointer ring notifiers)
    (hinv : Inv pointer ring kHeaderSize boundaries starts picked total state)
    (hstep : step ops pointer ring kHeaderSize notifiers boundaries state action =
      some next) :
    Inv pointer ring kHeaderSize boundaries starts picked total next := by
  cases action with
  | mark index => exact (hinv.mark hsetting hstep).1
  | writeBack index core isNt almostEmpty =>
      exact (hinv.writeBack hsetting hconfined hstep).1
  | allocate core nt objectSize => exact hinv.allocate hstep
  | migrate addr newAddr =>
      simp only [Round.step, Option.ite_none_right_eq_some] at hstep
      obtain ⟨⟨hmutating, houtside, hbound⟩, hstep⟩ := hstep
      split at hstep
      · cases hstep
      · rename_i obj hlive
        rw [Option.ite_none_right_eq_some, Option.some.injEq] at hstep
        obtain ⟨-, rfl⟩ := hstep
        have hfrom : state.fromRegions = picked := by
          unfold mutating at hmutating
          cases hphase : state.phase with
          | marking | waiting | writingBack =>
              simp only [Inv, hphase] at hinv
              exact hinv.1.fromRegions
          | pushing pushed => simp [hphase] at hmutating
        rw [hfrom] at houtside
        exact hinv.mutate hsetting hmutating
          (mutates_migrate hring hsetting hlive houtside hbound)
  | free addr =>
      simp only [Round.step, Option.ite_none_right_eq_some, Option.map_eq_some_iff] at hstep
      obtain ⟨hmutating, obj, hlive, rfl⟩ := hstep
      exact hinv.mutate hsetting hmutating (mutates_free hring hsetting hlive)
  | finishMarking =>
      simp only [Round.step, Option.ite_none_right_eq_some, Option.some.injEq] at hstep
      obtain ⟨⟨hphase, hdone⟩, rfl⟩ := hstep
      simp only [Inv, hphase] at hinv ⊢
      obtain ⟨hactive, hwalks⟩ := hinv
      constructor
      · exact hactive.congr rfl ⟨hactive.cores, rfl⟩ rfl
      · intro start hstart obj hobj
        obtain ⟨hfreed, hlive⟩ := hwalks.finished hdone start hstart obj hobj
        exact ⟨hfreed, fun hfree => .inl (hlive hfree)⟩
  | startWriteBack =>
      simp only [Round.step, Option.ite_none_right_eq_some, Option.some.injEq] at hstep
      obtain ⟨hphase, rfl⟩ := hstep
      simp only [Inv, hphase] at hinv ⊢
      obtain ⟨hactive, hready⟩ := hinv
      constructor
      · exact hactive.congr rfl ⟨hactive.cores, rfl⟩ rfl
      · rw [hactive.fromRegions]
        exact Walks.of_start hactive.filled hready
  | finishWriteBack =>
      simp only [Round.step, Option.ite_none_right_eq_some, Option.some.injEq] at hstep
      obtain ⟨⟨hphase, hdone⟩, rfl⟩ := hstep
      simp only [Inv, hphase] at hinv ⊢
      obtain ⟨hactive, hwalks⟩ := hinv
      rw [List.drop_zero]
      exact vacated_of_finished hactive (hwalks.finished hdone)
  | push =>
      simp only [Round.step] at hstep
      split at hstep
      · rename_i pushed hphase
        split at hstep
        · cases hstep
        · rw [Option.map_eq_some_iff] at hstep
          obtain ⟨manager, -, rfl⟩ := hstep
          simp only [Inv, hphase] at hinv ⊢
          intro region hregion
          rw [List.drop_set_of_lt (Nat.lt_succ_self pushed)] at hregion
          apply hinv region
          exact (List.drop_sublist_drop_left _ (Nat.le_succ pushed)).subset hregion
      · cases hstep

end Step

/-- A round begins with a setting in which the invariant holds. -/
theorem exists_inv_of_begins
    (hbegins : Begins pointer ring kHeaderSize boundaries localCachePtr state) :
    ∃ starts picked total, Setting pointer boundaries localCachePtr starts picked total ∧
      Inv pointer ring kHeaderSize boundaries starts picked total state := by
  obtain ⟨manager, retries, isGcable, numRegions, husable, hpick⟩ := hbegins.picked
  obtain ⟨starts, hwell⟩ := hbegins.wellPicked
  have hbalance := husable.cores.pickFromRegions retries isGcable numRegions
  rw [hpick] at hbalance
  have hvalid : ∀ region ∈ state.fromRegions, region.isInvalid = false := by
    have hpicked := RegionManager.valid_pickLoop manager retries isGcable
      (numRegions - 1) [] (fun region hregion => husable.queues region (by
        simp only [RegionManager.filled, RegionManager.queued, List.mem_append] at hregion ⊢
        tauto)) (by simp)
    rw [RegionManager.pickFromRegions] at hpick
    rwa [hpick] at hpicked
  have hconserved : owned state.manager.regions + owned state.fromRegions =
      owned manager.regions := by
    rw [RegionManager.owned, RegionManager.owned, RegionManager.owned, ← hbalance.2,
      Multiset.map_add, add_comm]
  use starts, state.fromRegions, owned manager.regions
  constructor
  · constructor
    case valid => exact hvalid
    case indices => exact husable.indices
    case slices => exact husable.slices
    case addressable => exact husable.addressable
    case nodup =>
      rw [startsOf, List.nodup_flatMap]
      constructor
      · exact fun task htask => (hwell.filled task htask).nodup
      · apply hwell.apart.imp_of_mem
        intro first second hfirst hsecond hapart start hstart hother
        have hleft := (hwell.filled first hfirst).bounds start hstart
        have hright := (hwell.filled second hsecond).bounds start hother
        omega
    case inside =>
      intro start hstart houtside
      obtain ⟨task, htask, hmem⟩ := mem_startsOf.mp hstart
      obtain ⟨region, hregion, hboundary⟩ := List.mem_flatMap.mp htask
      have hslice := husable.slices region.identity (by
        rw [← hconserved]
        exact Multiset.mem_add.mpr (.inr (RegionManager.mem_owned.mpr
          ⟨region, hregion, hvalid region hregion, rfl⟩)))
      obtain ⟨hlower, hupper⟩ := hwell.inside region hregion task hboundary _ hslice
      have hbounds := (hwell.filled task htask).bounds start hmem
      exact houtside region hregion ⟨_, hslice, by omega, by omega⟩
  · simp only [Inv, hbegins.phase]
    constructor
    · constructor
      case fromRegions => rfl
      case cores => exact hbalance.1
      case conserved => exact hconserved
      case covered => exact hwell.covered
      case filled => exact hwell.filled
    · rw [hbegins.cursors]
      exact Walks.of_start hwell.filled hwell.fresh

/-- When a from-region is pushed, no local pointer addresses a byte of it; and
the collector changes only words of local pointers into the from-regions. -/
theorem no_pointer_into_pushed (hring : Rings ring)
    (hconfined : Confined pointer ring notifiers)
    (hreachable : (machine ops pointer ring kHeaderSize notifiers boundaries
      localCachePtr).Reachable state) :
    (∀ pushed region, state.phase = .pushing pushed →
      state.fromRegions[pushed]? = some region →
        ∀ slot, pointer.isPresent (state.heap.metas slot) = true →
          ¬ region.Contains (pointer.getObjectAddr (state.heap.metas slot))) ∧
      ∀ action next, action.isMutator = false →
        step ops pointer ring kHeaderSize notifiers boundaries state action = some next →
          ∀ slot, next.heap.metas slot ≠ state.heap.metas slot →
            pointer.isPresent (state.heap.metas slot) = true ∧
              ∃ region ∈ state.fromRegions,
                region.Contains (pointer.getObjectAddr (state.heap.metas slot)) := by
  obtain ⟨starts, picked, total, hsetting, hinv⟩ := hreachable.invariant
    (fun state => ∃ starts picked total,
      Setting pointer boundaries localCachePtr starts picked total ∧
        Inv pointer ring kHeaderSize boundaries starts picked total state)
    exists_inv_of_begins
    (fun ⟨starts, picked, total, hsetting, hinv⟩ _ hstep =>
      ⟨starts, picked, total, hsetting, hinv.step hsetting hring hconfined hstep⟩)
  constructor
  · intro pushed region hphase hregion
    simp only [Inv, hphase] at hinv
    apply hinv region
    obtain ⟨hbound, heq⟩ := List.getElem?_eq_some_iff.mp hregion
    rw [List.drop_eq_getElem_cons hbound, heq]
    exact List.mem_cons_self
  · intro action next hgc hstep slot hchanged
    have hinside : pointer.isPresent (state.heap.metas slot) = true ∧
        ¬ Outside state.fromRegions (pointer.getObjectAddr (state.heap.metas slot)) := by
      cases action with
      | mark index => exact (hinv.mark hsetting hstep).2 slot hchanged
      | writeBack index core isNt almostEmpty =>
          exact (hinv.writeBack hsetting hconfined hstep).2 slot hchanged
      | migrate | free | allocate => cases hgc
      | finishMarking | startWriteBack | finishWriteBack =>
          simp only [step, Option.ite_none_right_eq_some, Option.some.injEq] at hstep
          obtain ⟨-, rfl⟩ := hstep
          exact absurd rfl hchanged
      | push =>
          simp only [step] at hstep
          split at hstep
          · split at hstep
            · cases hstep
            · rw [Option.map_eq_some_iff] at hstep
              obtain ⟨manager, -, rfl⟩ := hstep
              exact absurd rfl hchanged
          · cases hstep
    simpa only [Outside, not_forall, not_not, exists_prop] using hinside

/-! ## One region -/

/-- A used region and a free one. -/
def oneUsed : RegionManager where
  coreLocalFreeRegions := List.replicate kNumCPUs Region.invalid
  coreLocalFreeNtRegions := List.replicate kNumCPUs Region.invalid
  freeRegions := [{ regionIdx := 1, bufPtr := some 1024 }]
  usedRegions := [{ regionIdx := 0, bufPtr := some 0 }]
  ntUsedRegions := []
  capacity := 2
  headers _ := {}

theorem usable_oneUsed : Usable (FarMemPtrMeta.pointerHpp 16) 0 oneUsed where
  cores := ⟨rfl, rfl⟩
  queues := by decide
  indices := by decide
  slices := by decide
  addressable := by decide

/-- A hot object of 16 bytes. -/
def hotObject (ptrAddr objId : ℕ) : Object where
  ptrAddr := ptrAddr
  dsId := 1
  objId := objId
  objIdLen := 8
  data := List.replicate 16 7

/-- Three objects at 8, 48 and 88, addressed by the pointers from 4096 on. -/
def threeObjects : Heap ℕ where
  metas slot :=
    if slot = 4096 then (FarMemPtrMeta.pointerHpp 16).setPresent 0 8
    else if slot = 4104 then (FarMemPtrMeta.pointerHpp 16).setPresent 0 48
    else if slot = 4112 then (FarMemPtrMeta.pointerHpp 16).setPresent 0 88
    else 2 ^ 8
  objects addr :=
    if addr = 8 then some (hotObject 4096 5)
    else if addr = 48 then some (hotObject 4104 6)
    else if addr = 88 then some (hotObject 4112 7)
    else none
  device _ _ := []
  refCnt _ := 0

/-- One boundary in the region with index 0. -/
def oneBoundary (region : Region) : List Task :=
  if region.regionIdx = 0 then [⟨8, 128⟩] else []

def oneRound : State ℕ where
  heap := threeObjects
  manager := { oneUsed with usedRegions := [] }
  fromRegions := [{ regionIdx := 0, bufPtr := some 0 }]
  phase := .marking
  cursors := [(⟨8, 128⟩, .test 8)]

theorem isPresent_threeObjects {slot : Slot}
    (hpresent : (FarMemPtrMeta.pointerHpp 16).isPresent (threeObjects.metas slot) = true) :
    slot ∈ [4096, 4104, 4112] := by
  by_contra hnone
  simp only [List.mem_cons, List.not_mem_nil, or_false, not_or] at hnone
  simp only [threeObjects, if_neg hnone.1, if_neg hnone.2.1, if_neg hnone.2.2] at hpresent
  exact absurd hpresent (by decide)

theorem wellPicked_threeObjects :
    WellPicked (FarMemPtrMeta.pointerHpp 16) (fun slot => [slot]) 16 oneBoundary
      (fun _ => [8, 48, 88]) threeObjects oneRound.fromRegions where
  filled := by
    intro task htask
    rw [List.mem_singleton.mp htask]
    exact .cons rfl (by decide) (by decide) (.cons rfl (by decide) (by decide)
      (.cons rfl (by decide) (by decide) (.done (by decide))))
  inside := by decide
  apart := List.pairwise_singleton ..
  fresh := by
    have howned : ∀ start ∈ [8, 48, 88], ∀ obj ∈ threeObjects.objects start,
        obj.freed = false ∧
          Points (FarMemPtrMeta.pointerHpp 16) (fun slot => [slot]) threeObjects start
            obj.ptrAddr ∧
          ∀ slot ∈ [4096, 4104, 4112],
            (FarMemPtrMeta.pointerHpp 16).getObjectAddr (threeObjects.metas slot) = start →
              slot ∈ aliasesOf (FarMemPtrMeta.pointerHpp 16) (fun slot => [slot])
                threeObjects obj.ptrAddr := by
      decide
    intro start hstart obj hobj
    obtain ⟨hlive, hpoints, hcomplete⟩ := howned start hstart obj hobj
    constructor
    · exact fun hfreed => absurd (hlive.symm.trans hfreed) (by decide)
    · intro _
      constructor
      case nodup => simp [aliasesOf]
      case named => simp [aliasesOf]
      case points => exact hpoints
      case complete =>
        intro slot hpresent haddr
        exact hcomplete slot (isPresent_threeObjects hpresent) haddr
  covered := by
    have hcovered : ∀ slot ∈ [4096, 4104, 4112],
        (FarMemPtrMeta.pointerHpp 16).getObjectAddr (threeObjects.metas slot) ∈
          [8, 48, 88] := by
      decide
    intro slot hpresent _
    exact hcovered slot (isPresent_threeObjects hpresent)

/-- Both passes.  In between a mutator migrates the second object to the free
region and frees the third; the first is copied behind the second. -/
def pushedRun : List Action :=
  List.replicate 10 (Action.mark 0) ++
    [Action.finishMarking, Action.allocate ⟨0, kNumCPUs_pos⟩ false 40,
      Action.migrate 48 1030, Action.free 88, Action.startWriteBack] ++
    List.replicate 9 (Action.writeBack 0 ⟨0, kNumCPUs_pos⟩ (fun _ => false) false) ++
      [Action.finishWriteBack]

theorem run_pushedRun :
    ∃ state, (machine RegionOps.bump (FarMemPtrMeta.pointerHpp 16) (fun slot => [slot]) 16
        ⟨fun _ => none, fun _ => none⟩ oneBoundary 0).run oneRound pushedRun = some state ∧
      state.phase = .pushing 0 ∧
      state.fromRegions = [{ regionIdx := 0, bufPtr := some 0 }] ∧
      (FarMemPtrMeta.pointerHpp 16).getObjectAddr (state.heap.metas 4096) = 1070 ∧
      (FarMemPtrMeta.pointerHpp 16).getObjectAddr (state.heap.metas 4104) = 1030 ∧
      (FarMemPtrMeta.pointerHpp 16).isPresent (state.heap.metas 4112) = false :=
  ⟨_, rfl, rfl, rfl, by decide, by decide, by decide⟩

theorem no_pointer_into_pushed_pushedRun :
    ∃ state, (machine RegionOps.bump (FarMemPtrMeta.pointerHpp 16) (fun slot => [slot]) 16
        ⟨fun _ => none, fun _ => none⟩ oneBoundary 0).run oneRound pushedRun = some state ∧
      ∀ slot, (FarMemPtrMeta.pointerHpp 16).isPresent (state.heap.metas slot) = true →
        ¬ Region.Contains { regionIdx := 0, bufPtr := some 0 }
          ((FarMemPtrMeta.pointerHpp 16).getObjectAddr (state.heap.metas slot)) := by
  obtain ⟨state, hrun, hphase, hregions, -⟩ := run_pushedRun
  have hbegins : Begins (FarMemPtrMeta.pointerHpp 16) (fun slot => [slot]) 16 oneBoundary 0
      oneRound :=
    ⟨⟨oneUsed, 3, fun _ _ => true, 1, usable_oneUsed, rfl⟩, rfl, rfl, _,
      wellPicked_threeObjects⟩
  use state, hrun
  exact (no_pointer_into_pushed ⟨by simp, by simp⟩
    ⟨by simp, by simp, by simp, by simp⟩ (.of_run hbegins hrun)).1 0 _ hphase
      (by rw [hregions]; rfl)

end Round

end DynamicSwap
