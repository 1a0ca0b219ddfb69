import DynamicSwap.Core.ObjectSize
import DynamicSwap.Core.Pointer
import DynamicSwap.Region.Refill

/-!
# The retry loops of the allocators

An allocation tries the core's slot and then one free region after the other,
each through the slot.  A loop ends at the first region that can hold the object;
what it passes over goes to the used queues in the order of the free list.  The
non-blocking loop also ends when the free list does.  The blocking ones wait and
try again, so they end only at a region with space: no object above
`kSize - kHeaderSize` bytes has one.
-/

namespace DynamicSwap

namespace Region

/-- Where the region's bytes begin, in the cache or in far memory. -/
def base (region : Region) : ℕ :=
  region.bufPtr.getD (region.regionIdx.toNat * kSize)

/-- The aligned object fits behind the header and what the region holds. -/
def CanHold (region : Region) (objectSize : ℕ) : Prop :=
  region.isInvalid = false ∧
    max region.firstFreeByteIdx kHeaderSize + alignTo objectSize FarMemPtrMeta.kSize ≤ kSize

instance (region : Region) (objectSize : ℕ) : Decidable (region.CanHold objectSize) :=
  inferInstanceAs (Decidable (_ ∧ _))

/-- The object's bytes are bytes of the region behind its header. -/
def Encloses (region : Region) (addr objectSize : ℕ) : Prop :=
  region.base + kHeaderSize ≤ addr ∧ addr + objectSize ≤ region.base + kSize

theorem CanHold.add_le {region : Region} {objectSize : ℕ} (hhold : region.CanHold objectSize) :
    max region.firstFreeByteIdx kHeaderSize + objectSize ≤ kSize := by
  have hle : objectSize ≤ alignTo objectSize FarMemPtrMeta.kSize :=
    le_alignTo objectSize (by decide)
  exact (Nat.add_le_add_left hle _).trans hhold.2

/-- Nothing above `kSize - kHeaderSize` bytes fits in any region. -/
theorem CanHold.le {region : Region} {objectSize : ℕ} (hhold : region.CanHold objectSize) :
    objectSize ≤ kSize - kHeaderSize := by
  have hfits := hhold.add_le
  omega

theorem base_congr {first second : Region} (hsame : first.identity = second.identity) :
    first.base = second.base := by
  have hidx : first.regionIdx = second.regionIdx := congrArg Prod.fst hsame
  have hbufPtr : first.bufPtr = second.bufPtr := congrArg Prod.snd hsame
  rw [base, base, hidx, hbufPtr]

end Region

/-- `allocate_object` succeeds on the valid regions with space for the aligned
object, and places it inside. -/
structure RegionOps.AllocatesAligned (ops : RegionOps) : Prop where
  isSome_iff : ∀ region objectSize,
    (ops.allocateObject region objectSize).isSome = true ↔ region.CanHold objectSize
  encloses : ∀ region objectSize addr next,
    ops.allocateObject region objectSize = some (addr, next) →
      region.Encloses addr objectSize

theorem RegionOps.AllocatesAligned.not_canHold {ops : RegionOps} (halloc : ops.AllocatesAligned)
    {region : Region} {objectSize : ℕ}
    (hallocate : ops.allocateObject region objectSize = none) :
    ¬ region.CanHold objectSize := by
  rw [← halloc.isSome_iff, hallocate]
  exact Bool.false_ne_true

/-- One implementation: aligned objects follow each other. -/
def RegionOps.aligned : RegionOps where
  allocateObject region objectSize :=
    if region.CanHold objectSize then
      some (region.base + max region.firstFreeByteIdx Region.kHeaderSize,
        { region with
          firstFreeByteIdx := max region.firstFreeByteIdx Region.kHeaderSize +
            alignTo objectSize FarMemPtrMeta.kSize })
    else none
  reset region := { region with firstFreeByteIdx := Region.kHeaderSize }
  resetHeader _ := {}
  moved _ := Region.invalid
  headerIdx region := region.regionIdx
  allocateObject_invalid := by simp +contextual [Region.CanHold]
  identity_allocateObject := by
    intro region objectSize addr next hallocate
    rw [Option.ite_none_right_eq_some, Option.some.injEq, Prod.mk.injEq] at hallocate
    exact hallocate.2.2 ▸ rfl
  allocateObject_fits := by
    intro region objectSize addr next bufPtr hallocate hbufPtr
    rw [Option.ite_none_right_eq_some, Option.some.injEq, Prod.mk.injEq] at hallocate
    have hfits := hallocate.1.add_le
    have haddr := hallocate.2.1
    rw [Region.base, hbufPtr, Option.getD_some] at haddr
    omega
  identity_reset := bump.identity_reset
  isInvalid_moved := bump.isInvalid_moved
  headerIdx_valid := bump.headerIdx_valid
  refCnt_resetHeader := bump.refCnt_resetHeader

theorem RegionOps.allocatesAligned_aligned : RegionOps.aligned.AllocatesAligned := by
  constructor
  case isSome_iff =>
    intro region objectSize
    rw [RegionOps.aligned]
    dsimp only
    split
    · exact iff_of_true rfl ‹_›
    · exact iff_of_false Bool.false_ne_true ‹_›
  case encloses =>
    intro region objectSize addr next hallocate
    simp only [RegionOps.aligned, Option.ite_none_right_eq_some, Option.some.injEq,
      Prod.mk.injEq] at hallocate
    have hfits := hallocate.1.add_le
    have haddr := hallocate.2.1
    rw [Region.Encloses]
    omega

namespace RegionManager

variable (ops : RegionOps)

/-- The `retry_allocate_local` loop of `allocate_local_object_nb` as the source
writes it, with the number of calls of `try_refill_core_local_free_region`. -/
inductive RetriesNb (core : Fin kNumCPUs) (nt : Bool) (objectSize : ℕ) :
    RegionManager → ℕ → Option ℕ × RegionManager → Prop
  | allocated {manager : RegionManager} {addr : ℕ} {region : Region}
      (hallocate : ops.allocateObject (manager.coreLocalFreeRegion core nt) objectSize =
        some (addr, region)) :
      RetriesNb core nt objectSize manager 0
        (some addr, manager.setCoreLocalFreeRegion core nt region)
  | exhausted {manager next : RegionManager}
      (hfull : ops.allocateObject (manager.coreLocalFreeRegion core nt) objectSize = none)
      (hrefill : manager.tryRefillCoreLocalFreeRegion ops core nt = some (false, next)) :
      RetriesNb core nt objectSize manager 1 (none, next)
  | retried {manager next : RegionManager} {refills : ℕ} {result : Option ℕ × RegionManager}
      (hfull : ops.allocateObject (manager.coreLocalFreeRegion core nt) objectSize = none)
      (hrefill : manager.tryRefillCoreLocalFreeRegion ops core nt = some (true, next))
      (hretries : RetriesNb core nt objectSize next refills result) :
      RetriesNb core nt objectSize manager (refills + 1) result

/-- The retry loop of the blocking allocators, for a bounded number of tries.
`none` is a failed `BUG_ON`, a wait that nothing ends or too few tries. -/
def retryAllocate (core : Fin kNumCPUs) (nt : Bool) (objectSize : ℕ) (waits : Bool) :
    ℕ → RegionManager → Option (ℕ × RegionManager)
  | 0, _ => none
  | tries + 1, manager =>
      match ops.allocateObject (manager.coreLocalFreeRegion core nt) objectSize with
      | some (addr, region) => some (addr, manager.setCoreLocalFreeRegion core nt region)
      | none =>
          match manager.tryRefillCoreLocalFreeRegion ops core nt with
          | none => none
          | some (success, manager) =>
              if success = false ∧ waits = true then none
              else retryAllocate core nt objectSize waits tries manager

/-- `allocate_local_object`.  With nobody else running,
`mutator_wait_for_gc_cache` returns only if `almost_empty` is not set. -/
def allocateLocalObject (core : Fin kNumCPUs) (nt : Bool) (objectSize : BitVec 16)
    (almostEmpty : Bool) : ℕ → RegionManager → Option (ℕ × RegionManager) :=
  retryAllocate ops core nt objectSize.toNat almostEmpty

/-- `allocate_remote_object`, on the far-memory manager.
`mutator_wait_for_gc_far_mem` only logs. -/
def allocateRemoteObject (core : Fin kNumCPUs) (nt : Bool) (objectSize : BitVec 16) :
    ℕ → RegionManager → Option (ℕ × RegionManager) :=
  retryAllocate ops core nt objectSize.toNat false

/-! ## What an allocation passes over -/

/-- The regions in the order in which they are tried, each with whether it
retires to `nt_used_regions_`. -/
def candidates (core : Fin kNumCPUs) (nt : Bool) (manager : RegionManager) :
    List (Region × Bool) :=
  (manager.coreLocalFreeRegion core nt,
      manager.goesNt ops (manager.coreLocalFreeRegion core nt)) ::
    manager.freeRegions.map fun region =>
      (region, region.isLocal && (nt || manager.isNt ops region))

/-- The valid regions before the first that can hold the object, those for one
of the used queues. -/
def passedOver (objectSize : ℕ) (kind : Bool) (candidates : List (Region × Bool)) :
    List Region :=
  (((candidates.takeWhile fun candidate => !decide (candidate.1.CanHold objectSize)).filter
    fun candidate => !candidate.1.isInvalid).filter
      fun candidate => candidate.2 == kind).map Prod.fst

/-- The queue takes what is pushed, if anything is. -/
def TakesAll (capacity : ℕ) (queue pushed : List Region) : Prop :=
  pushed ≠ [] → queue.length + pushed.length ≤ capacity

instance (capacity : ℕ) (queue pushed : List Region) :
    Decidable (TakesAll capacity queue pushed) :=
  inferInstanceAs (Decidable (pushed ≠ [] → _))

/-- Room in the used queues for the regions passed over. -/
structure RoomToPass (core : Fin kNumCPUs) (nt : Bool) (objectSize : ℕ)
    (manager : RegionManager) : Prop where
  usedRegions : TakesAll manager.capacity manager.usedRegions
    (passedOver objectSize false (manager.candidates ops core nt))
  ntUsedRegions : TakesAll manager.capacity manager.ntUsedRegions
    (passedOver objectSize true (manager.candidates ops core nt))

/-- Some region that an allocation tries can hold the object. -/
def Holdable (core : Fin kNumCPUs) (nt : Bool) (objectSize : ℕ)
    (manager : RegionManager) : Prop :=
  ∃ region ∈ manager.coreLocalFreeRegion core nt :: manager.freeRegions,
    region.CanHold objectSize

/-- The outcome of an allocation. -/
structure Allocated (core : Fin kNumCPUs) (nt : Bool) (objectSize : ℕ)
    (manager : RegionManager) (result : Option ℕ) (next : RegionManager) : Prop where
  isSome_iff : result.isSome = true ↔ manager.Holdable core nt objectSize
  encloses : ∀ addr ∈ result, (next.coreLocalFreeRegion core nt).Encloses addr objectSize
  usedRegions : next.usedRegions = manager.usedRegions ++
    passedOver objectSize false (manager.candidates ops core nt)
  ntUsedRegions : next.ntUsedRegions = manager.ntUsedRegions ++
    passedOver objectSize true (manager.candidates ops core nt)
  freeRegions : next.freeRegions =
    ((manager.coreLocalFreeRegion core nt :: manager.freeRegions).dropWhile
      fun region => !decide (region.CanHold objectSize)).tail
  exhausted : result = none →
    next.freeRegions = [] ∧ (next.coreLocalFreeRegion core nt).isInvalid = true
  refCnt : ∀ idx, (next.headers idx).refCnt = (manager.headers idx).refCnt
  others : ∀ otherCore otherNt, ¬ (otherCore = core ∧ otherNt = nt) →
    next.coreLocalFreeRegion otherCore otherNt =
      manager.coreLocalFreeRegion otherCore otherNt

variable {ops} {manager next : RegionManager} {core : Fin kNumCPUs} {nt success : Bool}
  {objectSize addr : ℕ}

/-! ## One refill -/

theorem passedOver_nil (objectSize : ℕ) (kind : Bool) : passedOver objectSize kind [] = [] :=
  rfl

theorem passedOver_of_canHold {candidate : Region × Bool} {candidates : List (Region × Bool)}
    {kind : Bool} (hhold : candidate.1.CanHold objectSize) :
    passedOver objectSize kind (candidate :: candidates) = [] := by
  rw [passedOver, List.takeWhile_cons_of_neg (by simpa using hhold)]
  rfl

theorem passedOver_of_not {candidate : Region × Bool} {candidates : List (Region × Bool)}
    {kind : Bool} (hfull : ¬ candidate.1.CanHold objectSize) :
    passedOver objectSize kind (candidate :: candidates) =
      (([candidate].filter fun candidate => !candidate.1.isInvalid).filter
        fun candidate => candidate.2 == kind).map Prod.fst ++
        passedOver objectSize kind candidates := by
  rw [passedOver, List.takeWhile_cons_of_pos (by simpa using hfull), passedOver,
    ← List.map_append, ← List.filter_append, ← List.filter_append, List.singleton_append]

/-- What the slot's region adds to a used queue. -/
def retired (ops : RegionOps) (core : Fin kNumCPUs) (nt kind : Bool)
    (manager : RegionManager) : List Region :=
  (manager.fullRegion core nt).filter fun region => manager.goesNt ops region == kind

theorem passedOver_candidates {kind : Bool}
    (hfull : ¬ (manager.coreLocalFreeRegion core nt).CanHold objectSize) :
    passedOver objectSize kind (manager.candidates ops core nt) =
      manager.retired ops core nt kind ++
        passedOver objectSize kind (manager.candidates ops core nt).tail := by
  rw [candidates, passedOver_of_not hfull, retired, fullRegion, List.tail_cons]
  cases hinvalid : (manager.coreLocalFreeRegion core nt).isInvalid with
  | true => simp [hinvalid]
  | false =>
      cases hkind : manager.goesNt ops (manager.coreLocalFreeRegion core nt) == kind <;>
        simp [hinvalid, hkind]

/-- What one refill does for the loop. -/
structure Passes (ops : RegionOps) (core : Fin kNumCPUs) (nt : Bool)
    (manager next : RegionManager) : Prop where
  hasCores : next.HasCores
  capacity : next.capacity = manager.capacity
  usedRegions : next.usedRegions = manager.usedRegions ++ manager.retired ops core nt false
  ntUsedRegions :
    next.ntUsedRegions = manager.ntUsedRegions ++ manager.retired ops core nt true
  freeRegions : next.freeRegions = manager.freeRegions.tail
  refCnt : ∀ idx, (next.headers idx).refCnt = (manager.headers idx).refCnt
  others : ∀ otherCore otherNt, ¬ (otherCore = core ∧ otherNt = nt) →
    next.coreLocalFreeRegion otherCore otherNt =
      manager.coreLocalFreeRegion otherCore otherNt

@[simp]
theorem capacity_flag (region : Region) :
    (flag ops nt region manager).capacity = manager.capacity := by
  rw [flag]
  split <;> rfl

theorem HasCores.flag (hcores : manager.HasCores) (ops : RegionOps) (nt : Bool)
    (region : Region) : (flag ops nt region manager).HasCores := by
  rw [RegionManager.flag]
  split
  · exact ⟨hcores.regions, hcores.ntRegions⟩
  · exact hcores

theorem usedRegions_retire :
    (manager.retire ops core nt).usedRegions =
      manager.usedRegions ++ manager.retired ops core nt false := by
  have hkind : (fun region => manager.goesNt ops region == false) =
      fun region => !manager.goesNt ops region := by
    funext region
    cases manager.goesNt ops region <;> rfl
  rw [retired, hkind, retire]

theorem ntUsedRegions_retire :
    (manager.retire ops core nt).ntUsedRegions =
      manager.ntUsedRegions ++ manager.retired ops core nt true := by
  have hkind : (fun region => manager.goesNt ops region == true) = manager.goesNt ops := by
    funext region
    cases manager.goesNt ops region <;> rfl
  rw [retired, hkind, retire]

theorem HasCores.passes (hcores : manager.HasCores) (flagged slot : Region) :
    Passes ops core nt manager (RegionManager.flag ops nt flagged
      ({ manager.retire ops core nt with
        freeRegions := manager.freeRegions.tail }.setCoreLocalFreeRegion core nt slot)) := by
  have hcoresPopped :
      { manager.retire ops core nt with
        freeRegions := manager.freeRegions.tail }.HasCores :=
    ⟨hcores.regions, hcores.ntRegions⟩
  constructor
  case hasCores => exact (hcoresPopped.setCoreLocalFreeRegion slot).flag ops nt flagged
  case capacity =>
    rw [capacity_flag, capacity_setCoreLocalFreeRegion]
    rfl
  case usedRegions =>
    rw [usedRegions_flag, usedRegions_setCoreLocalFreeRegion]
    exact usedRegions_retire
  case ntUsedRegions =>
    rw [ntUsedRegions_flag, ntUsedRegions_setCoreLocalFreeRegion]
    exact ntUsedRegions_retire
  case freeRegions => rw [freeRegions_flag, freeRegions_setCoreLocalFreeRegion]
  case refCnt =>
    intro idx
    rw [refCnt_flag, headers_setCoreLocalFreeRegion]
    rfl
  case others =>
    intro otherCore otherNt hother
    rw [coreLocalFreeRegion_flag, coreLocalFreeRegion_set_of_ne _ hother]
    rfl

/-- Whatever is asked for, a region flagged for it is of its kind, and a write
to one header makes no difference to the kind of another. -/
theorem nt_or_isNt_flag (flagged region : Region) :
    (nt || (manager.flag ops nt flagged).isNt ops region) =
      (nt || manager.isNt ops region) := by
  cases nt <;> rfl

theorem isNt_congr (hheaders : next.headers = manager.headers) (region : Region) :
    next.isNt ops region = manager.isNt ops region := by
  rw [isNt, hheaders, isNt]

/-- With a free region the loop goes on, one candidate further. -/
theorem HasCores.refill_cons (hcores : manager.HasCores) (hroom : manager.RoomFor ops core nt)
    (hfree : manager.freeRegions ≠ []) :
    ∃ next, manager.tryRefillCoreLocalFreeRegion ops core nt = some (true, next) ∧
      Passes ops core nt manager next ∧
        next.coreLocalFreeRegion core nt :: next.freeRegions = manager.freeRegions ∧
          next.candidates ops core nt = (manager.candidates ops core nt).tail := by
  obtain ⟨region, freeRegions, hcons⟩ := List.exists_cons_of_ne_nil hfree
  have hrefill := hcores.tryRefill_cons hroom hcons
  have htail : manager.freeRegions.tail = freeRegions := congrArg List.tail hcons
  rw [← htail] at hrefill
  have hpasses : Passes ops core nt manager _ := hcores.passes region region
  have hcoresPopped :
      { manager.retire ops core nt with
        freeRegions := manager.freeRegions.tail }.HasCores :=
    ⟨hcores.regions, hcores.ntRegions⟩
  generalize hpopped : { manager.retire ops core nt with
    freeRegions := manager.freeRegions.tail }.setCoreLocalFreeRegion core nt region = popped
    at hrefill hpasses
  have hslot : popped.coreLocalFreeRegion core nt = region := by
    rw [← hpopped]
    exact hcoresPopped.coreLocalFreeRegion_set region
  have hheaders : popped.headers = manager.headers := by
    rw [← hpopped, headers_setCoreLocalFreeRegion]
    rfl
  have hnt : (popped.flag ops nt region).isNt ops region =
      (nt || manager.isNt ops region) := by
    cases nt with
    | true => exact isNt_flag ops popped true region rfl
    | false => exact isNt_congr hheaders region
  have hslotFlag : (popped.flag ops nt region).coreLocalFreeRegion core nt = region := by
    rw [coreLocalFreeRegion_flag, hslot]
  refine ⟨_, hrefill, hpasses, ?_, ?_⟩
  · rw [hslotFlag, hpasses.freeRegions, htail, hcons]
  · rw [candidates, hslotFlag, goesNt, hnt, hpasses.freeRegions, htail, candidates,
      List.tail_cons, hcons, List.map_cons]
    congr 2
    funext other
    rw [nt_or_isNt_flag, isNt_congr hheaders]

/-- Without one the loop is left with an invalid slot. -/
theorem HasCores.refill_nil (hcores : manager.HasCores) (hroom : manager.RoomFor ops core nt)
    (hfree : manager.freeRegions = []) :
    ∃ next, manager.tryRefillCoreLocalFreeRegion ops core nt = some (false, next) ∧
      Passes ops core nt manager next ∧
        (next.coreLocalFreeRegion core nt).isInvalid = true := by
  have hrefill := hcores.tryRefill_nil hroom hfree
  have hpasses : Passes ops core nt manager _ :=
    hcores.passes (manager.emptiedSlot ops core nt) (manager.emptiedSlot ops core nt)
  have htail : manager.freeRegions.tail = manager.freeRegions := by rw [hfree, List.tail_nil]
  rw [htail] at hpasses
  refine ⟨_, hrefill, hpasses, ?_⟩
  rw [coreLocalFreeRegion_flag, (hcores.retire ops core nt).coreLocalFreeRegion_set]
  exact isInvalid_emptiedSlot manager core nt

/-- A refill that does not abort had room. -/
theorem roomFor_of_tryRefill {result : Bool × RegionManager}
    (hrefill : manager.tryRefillCoreLocalFreeRegion ops core nt = some result) :
    manager.RoomFor ops core nt := by
  intro region hregion
  obtain ⟨hslot, hvalid⟩ := List.mem_filter.mp hregion
  rw [List.mem_singleton] at hslot
  subst hslot
  have hinvalid : ¬ (manager.coreLocalFreeRegion core nt).isInvalid = true := by
    simpa using hvalid
  have hlt : ∀ {queue pushed : List Region} {region : Region},
      pushBack manager.capacity queue region = some pushed →
        queue.length < manager.capacity := by
    intro queue pushed region hpush
    by_contra hfull
    rw [pushBack, if_neg hfull] at hpush
    cases hpush
  rw [tryRefillCoreLocalFreeRegion, RegionManager.pushFullRegion, if_neg hinvalid] at hrefill
  rw [goesNt]
  split at hrefill
  · cases hrefill
  rename_i pushed hpush
  split at hpush
  · rename_i hkind
    rw [if_pos hkind]
    split at hpush
    · cases hpush
    · exact hlt ‹_›
  · rename_i hkind
    rw [if_neg hkind]
    split at hpush
    · cases hpush
    · exact hlt ‹_›

/-! ## The non-blocking loop -/

/-- A run is what `retryAllocateLocal` computes with a retry for each free
region. -/
theorem RetriesNb.retryAllocateLocal_eq {refills retries : ℕ}
    {result : Option ℕ × RegionManager}
    (hretries : RetriesNb ops core nt objectSize manager refills result)
    (hcores : manager.HasCores) (hbound : manager.freeRegions.length ≤ retries) :
    manager.retryAllocateLocal ops core nt objectSize retries = some result := by
  induction hretries generalizing retries with
  | allocated hallocate => rw [RegionManager.retryAllocateLocal, hallocate]
  | exhausted hfull hrefill => rw [RegionManager.retryAllocateLocal, hfull, hrefill]
  | @retried manager next refills result hfull hrefill _ ih =>
      have hroom := roomFor_of_tryRefill hrefill
      by_cases hfree : manager.freeRegions = []
      · obtain ⟨_, hfailed, _⟩ := hcores.refill_nil hroom hfree
        rw [hrefill] at hfailed
        cases hfailed
      · obtain ⟨_, hsame, hpasses, _⟩ := hcores.refill_cons hroom hfree
        cases hrefill.symm.trans hsame
        have hlength := List.length_pos_of_ne_nil hfree
        cases retries with
        | zero => omega
        | succ retries =>
            rw [RegionManager.retryAllocateLocal, hfull, hrefill]
            apply ih hpasses.hasCores
            rw [hpasses.freeRegions, List.length_tail]
            omega

theorem takesAll_append {capacity : ℕ} {queue first rest : List Region} :
    TakesAll capacity queue (first ++ rest) ↔
      TakesAll capacity queue first ∧ TakesAll capacity (queue ++ first) rest := by
  simp only [TakesAll, ne_eq, List.append_eq_nil_iff, List.length_append]
  cases rest with
  | nil => simp
  | cons region rest =>
      simp only [reduceCtorEq, and_false, not_false_eq_true, true_implies]
      omega

@[simp]
theorem takesAll_nil (capacity : ℕ) (queue : List Region) : TakesAll capacity queue [] :=
  fun hne => absurd rfl hne

@[simp]
theorem takesAll_singleton {capacity : ℕ} {queue : List Region} {region : Region} :
    TakesAll capacity queue [region] ↔ queue.length < capacity := by
  simp only [TakesAll, ne_eq, List.cons_ne_nil, not_false_eq_true, true_implies,
    List.length_singleton]
  exact Nat.add_one_le_iff

theorem roomFor_iff :
    manager.RoomFor ops core nt ↔
      TakesAll manager.capacity manager.usedRegions (manager.retired ops core nt false) ∧
        TakesAll manager.capacity manager.ntUsedRegions
          (manager.retired ops core nt true) := by
  cases hinvalid : (manager.coreLocalFreeRegion core nt).isInvalid with
  | true => simp [RoomFor, retired, fullRegion, hinvalid]
  | false =>
      have hvalid : manager.fullRegion core nt = [manager.coreLocalFreeRegion core nt] := by
        simp [fullRegion, hinvalid]
      rw [RoomFor, retired, retired, hvalid, List.forall_mem_singleton]
      cases hkind : manager.goesNt ops (manager.coreLocalFreeRegion core nt) <;>
        simp [hkind]

theorem RoomToPass.roomFor (hroom : manager.RoomToPass ops core nt objectSize)
    (hfull : ¬ (manager.coreLocalFreeRegion core nt).CanHold objectSize) :
    manager.RoomFor ops core nt := by
  have hused := hroom.usedRegions
  have hntUsed := hroom.ntUsedRegions
  rw [passedOver_candidates hfull, takesAll_append] at hused hntUsed
  exact roomFor_iff.mpr ⟨hused.1, hntUsed.1⟩

/-- Room for the whole loop is room for one refill and for what is left. -/
theorem Passes.roomToPass_iff (hpasses : Passes ops core nt manager next)
    (hfull : ¬ (manager.coreLocalFreeRegion core nt).CanHold objectSize)
    (hpassed : ∀ kind, passedOver objectSize kind (next.candidates ops core nt) =
      passedOver objectSize kind (manager.candidates ops core nt).tail) :
    manager.RoomToPass ops core nt objectSize ↔
      manager.RoomFor ops core nt ∧ next.RoomToPass ops core nt objectSize := by
  have hsplit : ∀ manager : RegionManager, manager.RoomToPass ops core nt objectSize ↔
      TakesAll manager.capacity manager.usedRegions
          (passedOver objectSize false (manager.candidates ops core nt)) ∧
        TakesAll manager.capacity manager.ntUsedRegions
          (passedOver objectSize true (manager.candidates ops core nt)) :=
    fun manager => ⟨fun hroom => ⟨hroom.1, hroom.2⟩, fun hroom => ⟨hroom.1, hroom.2⟩⟩
  rw [hsplit, hsplit, passedOver_candidates hfull, passedOver_candidates hfull,
    takesAll_append, takesAll_append, roomFor_iff, hpassed, hpassed, hpasses.capacity,
    hpasses.usedRegions, hpasses.ntUsedRegions]
  exact and_and_and_comm

/-- A result after a refill is the result before it. -/
theorem Allocated.of_passes {result : Option ℕ} {final : RegionManager}
    (hallocated : Allocated ops core nt objectSize next result final)
    (hpasses : Passes ops core nt manager next)
    (hfull : ¬ (manager.coreLocalFreeRegion core nt).CanHold objectSize)
    (hregions : next.coreLocalFreeRegion core nt :: next.freeRegions = manager.freeRegions)
    (hcandidates : next.candidates ops core nt = (manager.candidates ops core nt).tail) :
    Allocated ops core nt objectSize manager result final := by
  constructor
  case isSome_iff =>
    rw [hallocated.isSome_iff, Holdable, Holdable, hregions]
    simp [hfull]
  case encloses => exact hallocated.encloses
  case usedRegions =>
    rw [hallocated.usedRegions, hpasses.usedRegions, passedOver_candidates hfull,
      hcandidates, List.append_assoc]
  case ntUsedRegions =>
    rw [hallocated.ntUsedRegions, hpasses.ntUsedRegions, passedOver_candidates hfull,
      hcandidates, List.append_assoc]
  case freeRegions =>
    rw [hallocated.freeRegions, hregions, List.dropWhile_cons_of_pos (by simpa using hfull)]
  case exhausted => exact hallocated.exhausted
  case refCnt => exact fun idx => (hallocated.refCnt idx).trans (hpasses.refCnt idx)
  case others =>
    intro otherCore otherNt hother
    rw [hallocated.others _ _ hother, hpasses.others _ _ hother]

/-- The loop ends at the slot's region if that has space. -/
theorem HasCores.allocated_slot (hcores : manager.HasCores) (halloc : ops.AllocatesAligned)
    {region : Region}
    (hallocate : ops.allocateObject (manager.coreLocalFreeRegion core nt) objectSize =
      some (addr, region)) :
    Allocated ops core nt objectSize manager (some addr)
      (manager.setCoreLocalFreeRegion core nt region) := by
  have hhold : (manager.coreLocalFreeRegion core nt).CanHold objectSize := by
    rw [← halloc.isSome_iff, hallocate]
    rfl
  have hbase := Region.base_congr (ops.identity_allocateObject _ _ _ _ hallocate)
  constructor
  case isSome_iff => exact iff_of_true rfl ⟨_, List.mem_cons_self, hhold⟩
  case encloses =>
    rintro _ ⟨⟩
    rw [hcores.coreLocalFreeRegion_set, Region.Encloses, hbase]
    exact halloc.encloses _ _ _ _ hallocate
  case usedRegions =>
    rw [usedRegions_setCoreLocalFreeRegion, candidates, passedOver_of_canHold hhold,
      List.append_nil]
  case ntUsedRegions =>
    rw [ntUsedRegions_setCoreLocalFreeRegion, candidates, passedOver_of_canHold hhold,
      List.append_nil]
  case freeRegions =>
    rw [freeRegions_setCoreLocalFreeRegion, List.dropWhile_cons_of_neg (by simpa using hhold),
      List.tail_cons]
  case exhausted => exact nofun
  case refCnt =>
    intro idx
    rw [headers_setCoreLocalFreeRegion]
  case others => exact fun otherCore otherNt hother => coreLocalFreeRegion_set_of_ne _ hother

/-- It ends without a result if the last region is retired. -/
theorem Passes.exhausted (hpasses : Passes ops core nt manager next)
    (hfull : ¬ (manager.coreLocalFreeRegion core nt).CanHold objectSize)
    (hfree : manager.freeRegions = [])
    (hinvalid : (next.coreLocalFreeRegion core nt).isInvalid = true) :
    Allocated ops core nt objectSize manager none next := by
  have hpassed : ∀ kind, passedOver objectSize kind (manager.candidates ops core nt) =
      manager.retired ops core nt kind := by
    intro kind
    rw [passedOver_candidates hfull, candidates, hfree, List.map_nil, List.tail_cons,
      passedOver_nil, List.append_nil]
  constructor
  case isSome_iff =>
    refine iff_of_false Bool.false_ne_true ?_
    rintro ⟨region, hregion, hhold⟩
    rw [hfree, List.mem_singleton] at hregion
    exact hfull (hregion ▸ hhold)
  case encloses => exact nofun
  case usedRegions => rw [hpassed, hpasses.usedRegions]
  case ntUsedRegions => rw [hpassed, hpasses.ntUsedRegions]
  case freeRegions =>
    rw [hpasses.freeRegions, hfree, List.dropWhile_cons_of_pos (by simpa using hfull)]
    rfl
  case exhausted => exact fun _ => ⟨by rw [hpasses.freeRegions, hfree, List.tail_nil], hinvalid⟩
  case refCnt => exact hpasses.refCnt
  case others => exact hpasses.others

/-- The loop ends, by induction on the free list. -/
theorem HasCores.exists_retriesNb (hcores : manager.HasCores) (halloc : ops.AllocatesAligned)
    (hroom : manager.RoomToPass ops core nt objectSize) :
    ∃ refills result next,
      RetriesNb ops core nt objectSize manager refills (result, next) ∧
        refills ≤ manager.freeRegions.length + 1 ∧
          Allocated ops core nt objectSize manager result next := by
  induction hfree : manager.freeRegions generalizing manager with
  | nil =>
      cases hallocate : ops.allocateObject (manager.coreLocalFreeRegion core nt) objectSize with
      | some allocated =>
          exact ⟨0, _, _, .allocated hallocate, Nat.zero_le _,
            hcores.allocated_slot halloc hallocate⟩
      | none =>
          have hfull := halloc.not_canHold hallocate
          obtain ⟨next, hrefill, hpasses, hinvalid⟩ :=
            hcores.refill_nil (hroom.roomFor hfull) hfree
          exact ⟨1, _, _, .exhausted hallocate hrefill, le_refl _,
            hpasses.exhausted hfull hfree hinvalid⟩
  | cons region freeRegions ih =>
      cases hallocate : ops.allocateObject (manager.coreLocalFreeRegion core nt) objectSize with
      | some allocated =>
          exact ⟨0, _, _, .allocated hallocate, Nat.zero_le _,
            hcores.allocated_slot halloc hallocate⟩
      | none =>
          have hfull := halloc.not_canHold hallocate
          obtain ⟨next, hrefill, hpasses, hregions, hcandidates⟩ :=
            hcores.refill_cons (hroom.roomFor hfull) (hfree ▸ List.cons_ne_nil _ _)
          have hroomNext := ((hpasses.roomToPass_iff hfull fun kind => by
            rw [hcandidates]).mp hroom).2
          have hlength : next.freeRegions = freeRegions := by
            rw [hpasses.freeRegions, hfree, List.tail_cons]
          obtain ⟨refills, result, final, hretries, hbound, hallocated⟩ :=
            ih hpasses.hasCores hroomNext hlength
          exact ⟨refills + 1, result, final, .retried hallocate hrefill hretries,
            Nat.succ_le_succ hbound,
            hallocated.of_passes hpasses hfull hregions hcandidates⟩

/-- What `retryAllocateLocal` returns is the result of a run. -/
theorem exists_retriesNb {retries : ℕ} {result : Option ℕ × RegionManager}
    (hloop : manager.retryAllocateLocal ops core nt objectSize retries = some result) :
    ∃ refills, RetriesNb ops core nt objectSize manager refills result := by
  induction retries generalizing manager with
  | zero =>
      rw [RegionManager.retryAllocateLocal] at hloop
      split at hloop
      · cases hloop
        exact ⟨0, .allocated ‹_›⟩
      · split at hloop
        · cases hloop
        · cases hloop
          exact ⟨1, .exhausted ‹_› ‹_›⟩
        · cases hloop
  | succ retries ih =>
      rw [RegionManager.retryAllocateLocal] at hloop
      split at hloop
      · cases hloop
        exact ⟨0, .allocated ‹_›⟩
      · split at hloop
        · cases hloop
        · cases hloop
          exact ⟨1, .exhausted ‹_› ‹_›⟩
        · obtain ⟨refills, hretries⟩ := ih hloop
          exact ⟨refills + 1, .retried ‹_› ‹_› hretries⟩

/-- What a run does, whether or not it finds an address: it changes no reference
count, and the address is allocated in one of the regions that it tries. -/
theorem RetriesNb.spec {refills : ℕ} {result : Option ℕ × RegionManager}
    (hretries : RetriesNb ops core nt objectSize manager refills result)
    (hcores : manager.HasCores) :
    (∀ idx, (result.2.headers idx).refCnt = (manager.headers idx).refCnt) ∧
      ∀ addr ∈ result.1,
        ∃ region ∈ manager.coreLocalFreeRegion core nt :: manager.freeRegions,
          ∃ allocated, ops.allocateObject region objectSize = some (addr, allocated) := by
  induction hretries with
  | allocated hallocate =>
      refine ⟨fun idx => by rw [headers_setCoreLocalFreeRegion], ?_⟩
      rintro _ ⟨⟩
      exact ⟨_, List.mem_cons_self, _, hallocate⟩
  | @exhausted manager next hfull hrefill =>
      have hroom := roomFor_of_tryRefill hrefill
      by_cases hfree : manager.freeRegions = []
      · obtain ⟨_, hsame, hpasses, _⟩ := hcores.refill_nil hroom hfree
        cases hrefill.symm.trans hsame
        exact ⟨hpasses.refCnt, nofun⟩
      · obtain ⟨_, hsame, _⟩ := hcores.refill_cons hroom hfree
        cases hrefill.symm.trans hsame
  | @retried manager next refills result hfull hrefill _ ih =>
      have hroom := roomFor_of_tryRefill hrefill
      by_cases hfree : manager.freeRegions = []
      · obtain ⟨_, hsame, _⟩ := hcores.refill_nil hroom hfree
        cases hrefill.symm.trans hsame
      · obtain ⟨_, hsame, hpasses, hregions, _⟩ := hcores.refill_cons hroom hfree
        cases hrefill.symm.trans hsame
        obtain ⟨hrefCnt, hregion⟩ := ih hpasses.hasCores
        refine ⟨fun idx => (hrefCnt idx).trans (hpasses.refCnt idx), fun addr haddr => ?_⟩
        obtain ⟨region, hmem, hallocated⟩ := hregion addr haddr
        exact ⟨region, List.mem_cons_of_mem _ (hregions ▸ hmem), hallocated⟩

/-- The non-blocking allocation ends, and its result accounts for every region
that it tries. -/
theorem allocateLocalObjectNb_ends (objectSize : BitVec 16) (hcores : manager.HasCores)
    (halloc : ops.AllocatesAligned)
    (hroom : manager.RoomToPass ops core nt objectSize.toNat) :
    ∃ refills result next,
      RetriesNb ops core nt objectSize.toNat manager refills (result, next) ∧
        manager.allocateLocalObjectNb ops core nt objectSize.toNat = some (result, next) ∧
          refills ≤ manager.freeRegions.length + 1 ∧
            Allocated ops core nt objectSize.toNat manager result next := by
  obtain ⟨refills, result, next, hretries, hbound, hallocated⟩ :=
    hcores.exists_retriesNb halloc hroom
  exact ⟨refills, result, next, hretries, hretries.retryAllocateLocal_eq hcores le_rfl,
    hbound, hallocated⟩

/-- The slot is full, region 1 has ten bytes left and region 2 is fresh. -/
def partlyFull : RegionManager where
  coreLocalFreeRegions := (List.replicate kNumCPUs Region.invalid).set 0 ⟨0, some 0, 1024⟩
  coreLocalFreeNtRegions := List.replicate kNumCPUs Region.invalid
  freeRegions := [⟨1, some 1024, 1014⟩, ⟨2, some 2048, Region.kHeaderSize⟩]
  usedRegions := []
  ntUsedRegions := []
  capacity := 2
  headers _ := {}

theorem partlyFull_ends :
    ∃ refills result next,
      RetriesNb .aligned 0 false 100 partlyFull refills (result, next) ∧
        partlyFull.allocateLocalObjectNb .aligned 0 false 100 = some (result, next) ∧
          refills ≤ partlyFull.freeRegions.length + 1 ∧
            Allocated .aligned 0 false 100 partlyFull result next :=
  allocateLocalObjectNb_ends 100 ⟨by decide, by decide⟩ RegionOps.allocatesAligned_aligned
    ⟨by decide +kernel, by decide +kernel⟩

/-! ## The blocking loops -/

/-- A run of the non-blocking loop that finds an address is one of the blocking
loop. -/
theorem RetriesNb.retryAllocate_eq {refills : ℕ} {result : Option ℕ × RegionManager}
    (hretries : RetriesNb ops core nt objectSize manager refills result) (waits : Bool)
    (hresult : result.1 = some addr) :
    manager.retryAllocate ops core nt objectSize waits (refills + 1) =
      some (addr, result.2) := by
  induction hretries with
  | allocated hallocate =>
      cases hresult
      rw [RegionManager.retryAllocate, hallocate]
  | exhausted => cases hresult
  | retried hfull hrefill _ ih =>
      rw [RegionManager.retryAllocate, hfull, hrefill]
      exact ih hresult

theorem roomToPass_of_canHold
    (hhold : (manager.coreLocalFreeRegion core nt).CanHold objectSize) :
    manager.RoomToPass ops core nt objectSize := by
  constructor
  · rw [candidates, passedOver_of_canHold hhold]
    exact takesAll_nil _ _
  · rw [candidates, passedOver_of_canHold hhold]
    exact takesAll_nil _ _

/-- A blocking loop that is left found a region with space, by induction on the
tries; from the end of the free list on there is none. -/
theorem HasCores.holdable_of_retryAllocate {tries : ℕ} {waits : Bool}
    (hcores : manager.HasCores) (halloc : ops.AllocatesAligned)
    (hreturns : manager.retryAllocate ops core nt objectSize waits tries = some (addr, next)) :
    manager.Holdable core nt objectSize ∧ manager.RoomToPass ops core nt objectSize := by
  induction tries generalizing manager with
  | zero => cases hreturns
  | succ tries ih =>
      rw [RegionManager.retryAllocate] at hreturns
      split at hreturns
      · rename_i hallocate
        have hhold : (manager.coreLocalFreeRegion core nt).CanHold objectSize := by
          rw [← halloc.isSome_iff, hallocate]
          rfl
        exact ⟨⟨_, List.mem_cons_self, hhold⟩, roomToPass_of_canHold hhold⟩
      rename_i hallocate
      have hfull := halloc.not_canHold hallocate
      split at hreturns
      · cases hreturns
      rename_i success refilled hrefill
      have hroom := roomFor_of_tryRefill hrefill
      rw [Option.ite_none_left_eq_some] at hreturns
      by_cases hfree : manager.freeRegions = []
      · obtain ⟨_, hsame, hpasses, hinvalid⟩ := hcores.refill_nil hroom hfree
        cases hrefill.symm.trans hsame
        obtain ⟨⟨region, hregion, hhold⟩, -⟩ := ih hpasses.hasCores hreturns.2
        rw [hpasses.freeRegions, hfree, List.tail_nil, List.mem_singleton] at hregion
        rw [hregion] at hhold
        exact absurd hinvalid (Bool.eq_false_iff.mp hhold.1)
      · obtain ⟨_, hsame, hpasses, hregions, hcandidates⟩ := hcores.refill_cons hroom hfree
        cases hrefill.symm.trans hsame
        obtain ⟨⟨region, hregion, hhold⟩, hroomNext⟩ := ih hpasses.hasCores hreturns.2
        refine ⟨⟨region, List.mem_cons_of_mem _ (hregions ▸ hregion), hhold⟩, ?_⟩
        exact (hpasses.roomToPass_iff hfull fun kind => by
          rw [hcandidates]).mpr ⟨hroom, hroomNext⟩

/-- The loop is left with an address inside the slot's region. -/
def Returns (allocate : ℕ → RegionManager → Option (ℕ × RegionManager))
    (core : Fin kNumCPUs) (nt : Bool) (objectSize : ℕ) (manager : RegionManager) : Prop :=
  ∃ tries addr next, allocate tries manager = some (addr, next) ∧
    (next.coreLocalFreeRegion core nt).Encloses addr objectSize

theorem HasCores.returns_iff (hcores : manager.HasCores) (halloc : ops.AllocatesAligned)
    (waits : Bool) :
    manager.Returns (retryAllocate ops core nt objectSize waits) core nt objectSize ↔
      manager.Holdable core nt objectSize ∧ manager.RoomToPass ops core nt objectSize := by
  constructor
  · rintro ⟨tries, addr, next, hreturns, _⟩
    exact hcores.holdable_of_retryAllocate halloc hreturns
  · rintro ⟨hholdable, hroom⟩
    obtain ⟨refills, result, next, hretries, _, hallocated⟩ :=
      hcores.exists_retriesNb halloc hroom
    obtain ⟨addr, haddr⟩ := Option.isSome_iff_exists.mp (hallocated.isSome_iff.mpr hholdable)
    exact ⟨refills + 1, addr, next, hretries.retryAllocate_eq waits haddr,
      hallocated.encloses addr haddr⟩

/-- A blocking allocation returns exactly when the slot's region or a free one
has space for the object and those before it can be retired. -/
theorem allocators_return_iff (objectSize : BitVec 16) (almostEmpty : Bool)
    (hcores : manager.HasCores) (halloc : ops.AllocatesAligned) :
    (manager.Returns (allocateLocalObject ops core nt objectSize almostEmpty) core nt
        objectSize.toNat ↔
      manager.Holdable core nt objectSize.toNat ∧
        manager.RoomToPass ops core nt objectSize.toNat) ∧
    (manager.Returns (allocateRemoteObject ops core nt objectSize) core nt
        objectSize.toNat ↔
      manager.Holdable core nt objectSize.toNat ∧
        manager.RoomToPass ops core nt objectSize.toNat) :=
  ⟨hcores.returns_iff halloc almostEmpty, hcores.returns_iff halloc false⟩

theorem partlyFull_returns :
    (partlyFull.Returns (allocateLocalObject .aligned 0 false 100 true) 0 false 100 ↔
      partlyFull.Holdable 0 false 100 ∧ partlyFull.RoomToPass .aligned 0 false 100) ∧
    (partlyFull.Returns (allocateRemoteObject .aligned 0 false 100) 0 false 100 ↔
      partlyFull.Holdable 0 false 100 ∧ partlyFull.RoomToPass .aligned 0 false 100) :=
  allocators_return_iff 100 true ⟨by decide, by decide⟩ RegionOps.allocatesAligned_aligned

/-- Above `kSize - kHeaderSize` bytes no state lets a blocking loop end. -/
theorem HasCores.not_returns_of_lt (hcores : manager.HasCores) (halloc : ops.AllocatesAligned)
    (waits : Bool) (hlarge : Region.kSize - Region.kHeaderSize < objectSize) :
    ¬ manager.Returns (retryAllocate ops core nt objectSize waits) core nt objectSize := by
  intro hreturns
  obtain ⟨⟨region, _, hhold⟩, _⟩ := (hcores.returns_iff halloc waits).mp hreturns
  exact absurd hhold.le (not_le_of_gt hlarge)

/-- An item of 1000 bytes is accepted and asks for 1024; region 2 is fresh, yet
neither loop ends. -/
theorem not_returns_1024 :
    (ObjectSize.allocateGenericUniquePtr ObjectSize.sixteenByteHeader 1000 none).map
        ObjectSize.Allocation.objectSize = some 1024 ∧
      partlyFull.freeRegions ≠ [] ∧
      (∀ almostEmpty, ¬ partlyFull.Returns
        (allocateLocalObject .aligned 0 false 1024 almostEmpty) 0 false 1024) ∧
      ¬ partlyFull.Returns (allocateRemoteObject .aligned 0 false 1024) 0 false 1024 := by
  have hcores : partlyFull.HasCores := ⟨by decide, by decide⟩
  have hstuck : ∀ waits, ¬ partlyFull.Returns (retryAllocate .aligned 0 false 1024 waits)
      0 false 1024 := fun waits =>
    hcores.not_returns_of_lt RegionOps.allocatesAligned_aligned waits (by decide)
  exact ⟨by decide, by decide, hstuck, hstuck false⟩

end RegionManager

end DynamicSwap
