import DynamicSwap.Library.Holdings
import DynamicSwap.Region.Construction

/-!
# Moving regions between cores, queues and the collector

The operations of `RegionManager` that move regions, and the allocation on a
core's local region that refills it.  Bodies of `Region` members live outside
the repository: the model takes them as parameters with what callers rely on.
Wherever a region moves it keeps its index and its buffer, and no operation
loses or duplicates one.
-/

namespace DynamicSwap

namespace Region

/-- What stays with a region wherever it moves. -/
def identity (region : Region) : BitVec 32 × Option ℕ :=
  (region.regionIdx, region.bufPtr)

/-- The address lies in the region's buffer. -/
def Contains (region : Region) (addr : ℕ) : Prop :=
  ∃ bufPtr ∈ region.bufPtr, bufPtr ≤ addr ∧ addr < bufPtr + kSize

instance (region : Region) (addr : ℕ) : Decidable (region.Contains addr) :=
  inferInstanceAs (Decidable (∃ bufPtr ∈ region.bufPtr, _))

end Region

/-- Members of `Region` that `region.hpp` declares.  `moved` is what a move
leaves behind and `headerIdx` the region whose header `buf_ptr_` points to. -/
structure RegionOps where
  allocateObject : Region → ℕ → Option (ℕ × Region)
  reset : Region → Region
  resetHeader : RegionHeader → RegionHeader
  moved : Region → Region
  headerIdx : Region → BitVec 32
  allocateObject_invalid : ∀ region objectSize, region.isInvalid = true →
    allocateObject region objectSize = none
  identity_allocateObject : ∀ region objectSize addr next,
    allocateObject region objectSize = some (addr, next) →
      next.identity = region.identity
  allocateObject_fits : ∀ region objectSize addr next bufPtr,
    allocateObject region objectSize = some (addr, next) →
      region.bufPtr = some bufPtr →
        bufPtr + Region.kHeaderSize ≤ addr ∧
          addr + objectSize ≤ bufPtr + Region.kSize
  identity_reset : ∀ region, (reset region).identity = region.identity
  isInvalid_moved : ∀ region, (moved region).isInvalid = true
  headerIdx_valid : ∀ region, region.isInvalid = false →
    headerIdx region = region.regionIdx
  refCnt_resetHeader : ∀ header, header.refCnt = 0 → (resetHeader header).refCnt = 0

/-- One implementation: the objects of a region follow each other. -/
def RegionOps.bump : RegionOps where
  allocateObject region objectSize :=
    let offset := max region.firstFreeByteIdx Region.kHeaderSize
    if region.isInvalid = true ∨ Region.kSize < offset + objectSize then none
    else
      some (region.bufPtr.getD (region.regionIdx.toNat * Region.kSize) + offset,
        { region with firstFreeByteIdx := offset + objectSize })
  reset region := { region with firstFreeByteIdx := Region.kHeaderSize }
  resetHeader _ := {}
  moved _ := Region.invalid
  headerIdx region := region.regionIdx
  allocateObject_invalid := by simp +contextual
  identity_allocateObject := by
    intro region objectSize addr next hallocate
    rw [Option.ite_none_left_eq_some, Option.some.injEq, Prod.mk.injEq] at hallocate
    exact hallocate.2.2 ▸ rfl
  allocateObject_fits := by
    intro region objectSize addr next bufPtr hallocate hbufPtr
    rw [Option.ite_none_left_eq_some, Option.some.injEq, Prod.mk.injEq] at hallocate
    obtain ⟨hfits, haddr, -⟩ := hallocate
    rw [hbufPtr, Option.getD_some] at haddr
    omega
  identity_reset := by simp [Region.identity]
  isInvalid_moved _ := rfl
  headerIdx_valid := by simp
  refCnt_resetHeader := by simp

/-- Only a valid region has room for an object. -/
theorem RegionOps.isInvalid_of_allocateObject {ops : RegionOps} {region next : Region}
    {objectSize addr : ℕ}
    (hallocate : ops.allocateObject region objectSize = some (addr, next)) :
    region.isInvalid = false := by
  by_contra hinvalid
  rw [ops.allocateObject_invalid _ _ (by simpa using hinvalid)] at hallocate
  cases hallocate

namespace RegionManager

open Library (own held held_append held_cons held_nil own_of_empty own_of_full)

variable (ops : RegionOps)

/-- `core_local_free_region(nt)` on a core. -/
def coreLocalFreeRegion (manager : RegionManager) (core : Fin kNumCPUs)
    (nt : Bool) : Region :=
  if nt then manager.coreLocalFreeNtRegions.getD core Region.invalid
  else manager.coreLocalFreeRegions.getD core Region.invalid

def setCoreLocalFreeRegion (manager : RegionManager) (core : Fin kNumCPUs)
    (nt : Bool) (region : Region) : RegionManager :=
  if nt then
    { manager with
      coreLocalFreeNtRegions := manager.coreLocalFreeNtRegions.set core region }
  else
    { manager with
      coreLocalFreeRegions := manager.coreLocalFreeRegions.set core region }

/-- `Region::is_nt`, read from the header. -/
def isNt (manager : RegionManager) (region : Region) : Bool :=
  (manager.headers (ops.headerIdx region)).nt

/-- `Region::set_nt`, a write to the header; a region without a buffer has none. -/
def setNt (manager : RegionManager) (region : Region) : RegionManager :=
  { manager with
    headers := Function.update manager.headers (ops.headerIdx region)
      { manager.headers (ops.headerIdx region) with nt := true } }

/-- `push_free_region`; `none` is the failed `BUG_ON`. -/
def pushFreeRegion (region : Region) (manager : RegionManager) :
    Option RegionManager :=
  match pushBack manager.capacity manager.freeRegions (ops.reset region) with
  | none => none
  | some freeRegions =>
      some { manager with
        freeRegions := freeRegions
        headers := Function.update manager.headers (ops.headerIdx region)
          (ops.resetHeader (manager.headers (ops.headerIdx region))) }

/-- The first half of `try_refill_core_local_free_region`, where `full_region`
is the core's own slot as at every call: a valid region goes to a used queue
and leaves the slot moved-from.  `none` is the failed `BUG_ON`. -/
def pushFullRegion (core : Fin kNumCPUs) (nt : Bool) (manager : RegionManager) :
    Option RegionManager :=
  let full := manager.coreLocalFreeRegion core nt
  if full.isInvalid then some manager
  else if full.isLocal && manager.isNt ops full then
    match pushBack manager.capacity manager.ntUsedRegions full with
    | none => none
    | some ntUsedRegions =>
        some ({ manager with ntUsedRegions := ntUsedRegions }.setCoreLocalFreeRegion
          core nt (ops.moved full))
  else
    match pushBack manager.capacity manager.usedRegions full with
    | none => none
    | some usedRegions =>
        some ({ manager with usedRegions := usedRegions }.setCoreLocalFreeRegion
          core nt (ops.moved full))

/-- The second half: an invalid slot takes the front of the free list.  `set_nt`
is called whether or not there was one. -/
def popFreeRegion (core : Fin kNumCPUs) (nt : Bool) (manager : RegionManager) :
    Bool × RegionManager :=
  if (manager.coreLocalFreeRegion core nt).isInvalid then
    let (success, manager) :=
      match manager.freeRegions with
      | [] => (false, manager)
      | region :: freeRegions =>
          (true, { manager with freeRegions := freeRegions }.setCoreLocalFreeRegion
            core nt region)
    if nt then (success, manager.setNt ops (manager.coreLocalFreeRegion core nt))
    else (success, manager)
  else (true, manager)

/-- `try_refill_core_local_free_region(nt, &core_local_free_region(nt))`. -/
def tryRefillCoreLocalFreeRegion (core : Fin kNumCPUs) (nt : Bool)
    (manager : RegionManager) : Option (Bool × RegionManager) :=
  match manager.pushFullRegion ops core nt with
  | none => none
  | some manager => some (manager.popFreeRegion ops core nt)

/-- The `retry_allocate_local` loop of `allocate_local_object_nb`.  Every retry
follows a successful refill, so the length of the free list bounds them. -/
def retryAllocateLocal (core : Fin kNumCPUs) (nt : Bool) (objectSize : ℕ) :
    ℕ → RegionManager → Option (Option ℕ × RegionManager)
  | retries, manager =>
      match ops.allocateObject (manager.coreLocalFreeRegion core nt) objectSize with
      | some (addr, region) =>
          some (some addr, manager.setCoreLocalFreeRegion core nt region)
      | none =>
          match manager.tryRefillCoreLocalFreeRegion ops core nt with
          | none => none
          | some (false, manager) => some (none, manager)
          | some (true, manager) =>
              match retries with
              | 0 => none
              | retries + 1 => retryAllocateLocal core nt objectSize retries manager

/-- `allocate_local_object_nb`. -/
def allocateLocalObjectNb (core : Fin kNumCPUs) (nt : Bool) (objectSize : ℕ)
    (manager : RegionManager) : Option (Option ℕ × RegionManager) :=
  manager.retryAllocateLocal ops core nt objectSize manager.freeRegions.length

/-- The `nt_retry` loop: a region that is not gcable goes to the back. -/
def ntRetry (isGcable : Region → Bool) :
    ℕ → List Region → Option Region × List Region
  | _, [] => (none, [])
  | retries, region :: queue =>
      if isGcable region then (some region, queue)
      else
        match retries with
        | 0 => (none, queue ++ [region])
        | retries + 1 => ntRetry isGcable retries (queue ++ [region])

/-- The `t_retry` loop: a region that is not gcable goes back to the front. -/
def tRetry (isGcable : Region → Bool) :
    ℕ → List Region → Option Region × List Region
  | _, [] => (none, [])
  | retries, region :: queue =>
      if isGcable region then (some region, queue)
      else
        match retries with
        | 0 => (none, region :: queue)
        | retries + 1 => tRetry isGcable retries (region :: queue)

/-- `pop_used_region`.  The counter is compared before it is incremented, so
each loop retries once more than `kPickRegionMaxRetryTimes`. -/
def popUsedRegion (kPickRegionMaxRetryTimes : ℕ) (isGcable : Region → Bool)
    (manager : RegionManager) : Option Region × RegionManager :=
  match ntRetry isGcable (kPickRegionMaxRetryTimes + 1) manager.ntUsedRegions with
  | (some region, ntUsedRegions) =>
      (some region, { manager with ntUsedRegions := ntUsedRegions })
  | (none, ntUsedRegions) =>
      match tRetry isGcable (kPickRegionMaxRetryTimes + 1) manager.usedRegions with
      | (region, usedRegions) =>
          (region, { manager with
            ntUsedRegions := ntUsedRegions
            usedRegions := usedRegions })

/-- The loop of `pick_from_regions`; reference counts may change between picks. -/
def pickLoop (kPickRegionMaxRetryTimes : ℕ) (isGcable : ℕ → Region → Bool) :
    ℕ → List Region → RegionManager → List Region × RegionManager
  | remaining, fromRegions, manager =>
      match manager.popUsedRegion kPickRegionMaxRetryTimes (isGcable remaining) with
      | (none, manager) => (fromRegions, manager)
      | (some region, manager) =>
          match remaining with
          | 0 => (fromRegions ++ [region], manager)
          | remaining + 1 =>
              pickLoop kPickRegionMaxRetryTimes isGcable remaining
                (fromRegions ++ [region]) manager

/-- `pick_from_regions` for a computed `num_regions_per_gc_round`: the test
comes after the pick, so at least one is tried. -/
def pickFromRegions (kPickRegionMaxRetryTimes : ℕ) (isGcable : ℕ → Region → Bool)
    (numRegionsPerGcRound : ℕ) (manager : RegionManager) :
    List Region × RegionManager :=
  pickLoop kPickRegionMaxRetryTimes isGcable (numRegionsPerGcRound - 1) [] manager

/-! ## Conservation -/

section Conservation

/-- The valid regions in a list of places. -/
abbrev live (regions : List Region) : Multiset Region :=
  Library.held Region.isInvalid regions

/-- Which regions these are, whatever has been allocated in them. -/
def owned (regions : List Region) : Multiset (BitVec 32 × Option ℕ) :=
  (live regions).map Region.identity

theorem isInvalid_congr {first second : Region}
    (hsame : first.identity = second.identity) :
    first.isInvalid = second.isInvalid := by
  have hidx : first.regionIdx = second.regionIdx := congrArg Prod.fst hsame
  rw [Region.isInvalid, Region.isInvalid, hidx]

theorem map_own_congr {first second : Region}
    (hsame : first.identity = second.identity) :
    (own Region.isInvalid first).map Region.identity =
      (own Region.isInvalid second).map Region.identity := by
  unfold own
  rw [isInvalid_congr hsame]
  split
  · rfl
  · rw [Multiset.map_singleton, Multiset.map_singleton, hsame]

theorem owned_append (first second : List Region) :
    owned (first ++ second) = owned first + owned second := by
  rw [owned, live, held_append, Multiset.map_add, owned, owned]

theorem owned_cons (region : Region) (regions : List Region) :
    owned (region :: regions) = owned [region] + owned regions := by
  rw [← owned_append, List.singleton_append]

theorem owned_of_perm {first second : List Region} (hperm : first.Perm second) :
    owned first = owned second := by
  rw [owned, owned, live, live, Library.held_of_perm hperm]

theorem owned_of_all_invalid {regions : List Region}
    (hinvalid : ∀ region ∈ regions, region.isInvalid = true) : owned regions = 0 := by
  rw [owned, live, Library.held_of_all_empty hinvalid, Multiset.map_zero]

theorem owned_singleton_congr {first second : Region}
    (hsame : first.identity = second.identity) : owned [first] = owned [second] := by
  simp only [owned, live, held_cons, held_nil, add_zero, map_own_congr hsame]

theorem mem_owned {regions : List Region} {identity : BitVec 32 × Option ℕ} :
    identity ∈ owned regions ↔
      ∃ region ∈ regions, region.isInvalid = false ∧ region.identity = identity := by
  rw [owned, Multiset.mem_map]
  simp only [Library.mem_held, and_assoc]

/-- Every core has a slot of each kind. -/
structure HasCores (manager : RegionManager) : Prop where
  regions : manager.coreLocalFreeRegions.length = kNumCPUs
  ntRegions : manager.coreLocalFreeNtRegions.length = kNumCPUs

/-- The slots other than one core's slot of one kind. -/
def otherSlots (manager : RegionManager) (core : Fin kNumCPUs) (nt : Bool) :
    List Region :=
  if nt then manager.coreLocalFreeNtRegions.eraseIdx core ++ manager.coreLocalFreeRegions
  else manager.coreLocalFreeRegions.eraseIdx core ++ manager.coreLocalFreeNtRegions

def queued (manager : RegionManager) : List Region :=
  manager.freeRegions ++ manager.usedRegions ++ manager.ntUsedRegions

variable {ops} {manager next : RegionManager} {core : Fin kNumCPUs} {nt : Bool}

theorem HasCores.setCoreLocalFreeRegion (hcores : manager.HasCores) (region : Region) :
    (manager.setCoreLocalFreeRegion core nt region).HasCores := by
  cases nt <;>
    exact ⟨by simpa [RegionManager.setCoreLocalFreeRegion] using hcores.regions,
      by simpa [RegionManager.setCoreLocalFreeRegion] using hcores.ntRegions⟩

@[simp]
theorem queued_setCoreLocalFreeRegion (region : Region) :
    (manager.setCoreLocalFreeRegion core nt region).queued = manager.queued := by
  cases nt <;> rfl

@[simp]
theorem freeRegions_setCoreLocalFreeRegion (region : Region) :
    (manager.setCoreLocalFreeRegion core nt region).freeRegions =
      manager.freeRegions := by
  cases nt <;> rfl

theorem HasCores.coreLocalFreeRegion_set (hcores : manager.HasCores) (region : Region) :
    (manager.setCoreLocalFreeRegion core nt region).coreLocalFreeRegion core nt =
      region := by
  have hlt := core.isLt
  cases nt with
  | true =>
      simp [RegionManager.setCoreLocalFreeRegion, coreLocalFreeRegion,
        hcores.ntRegions, hlt]
  | false =>
      simp [RegionManager.setCoreLocalFreeRegion, coreLocalFreeRegion,
        hcores.regions, hlt]

theorem otherSlots_set (region : Region) :
    (manager.setCoreLocalFreeRegion core nt region).otherSlots core nt =
      manager.otherSlots core nt := by
  cases nt <;> simp [RegionManager.setCoreLocalFreeRegion, otherSlots, List.eraseIdx_set_eq]

/-- A manager owns what one slot, the other slots and the queues hold. -/
theorem HasCores.live_regions (hcores : manager.HasCores) (core : Fin kNumCPUs)
    (nt : Bool) :
    live manager.regions =
      own Region.isInvalid (manager.coreLocalFreeRegion core nt) +
        live (manager.otherSlots core nt) + live manager.queued := by
  have hlt := core.isLt
  cases nt with
  | true =>
      have hsplit : live manager.coreLocalFreeNtRegions = _ :=
        Library.held_getD_eraseIdx (by rw [hcores.ntRegions]; exact hlt) Region.invalid
      simp only [RegionManager.regions, queued, otherSlots, coreLocalFreeRegion, live,
        held_append, hsplit, if_true]
      ac_rfl
  | false =>
      have hsplit : live manager.coreLocalFreeRegions = _ :=
        Library.held_getD_eraseIdx (by rw [hcores.regions]; exact hlt) Region.invalid
      simp only [RegionManager.regions, queued, otherSlots, coreLocalFreeRegion, live,
        held_append, hsplit, Bool.false_eq_true, if_false]
      ac_rfl

theorem HasCores.live_set (hcores : manager.HasCores) (region : Region) :
    live (manager.setCoreLocalFreeRegion core nt region).regions =
      own Region.isInvalid region + live (manager.otherSlots core nt) +
        live manager.queued := by
  rw [(hcores.setCoreLocalFreeRegion region).live_regions core nt,
    hcores.coreLocalFreeRegion_set, otherSlots_set, queued_setCoreLocalFreeRegion]

/-- A refill is its two halves. -/
theorem tryRefill_eq_some {result : Bool × RegionManager}
    (hrefill : manager.tryRefillCoreLocalFreeRegion ops core nt = some result) :
    ∃ pushed, manager.pushFullRegion ops core nt = some pushed ∧
      pushed.popFreeRegion ops core nt = result := by
  rw [tryRefillCoreLocalFreeRegion] at hrefill
  split at hrefill
  · cases hrefill
  · exact ⟨_, ‹_›, Option.some.inj hrefill⟩

theorem pushFreeRegion_eq_some {region : Region}
    (hpush : manager.pushFreeRegion ops region = some next) :
    manager.freeRegions.length < manager.capacity ∧
      next = { manager with
        freeRegions := manager.freeRegions ++ [ops.reset region]
        headers := Function.update manager.headers (ops.headerIdx region)
          (ops.resetHeader (manager.headers (ops.headerIdx region))) } := by
  rw [RegionManager.pushFreeRegion] at hpush
  split at hpush
  · cases hpush
  · rename_i freeRegions hqueue
    obtain ⟨hroom, rfl⟩ := pushBack_eq_some hqueue
    exact ⟨hroom, (Option.some.inj hpush).symm⟩

/-- `next` has the cores of `manager` and holds the same values. -/
structure Moves (manager next : RegionManager) : Prop where
  cores : next.HasCores
  live : live next.regions = live manager.regions

/-- `next` has the cores of `manager` and holds the same regions. -/
structure Keeps (manager next : RegionManager) : Prop where
  cores : next.HasCores
  owned : owned next.regions = owned manager.regions

theorem Moves.trans {last : RegionManager} (hfirst : manager.Moves next)
    (hsecond : next.Moves last) : manager.Moves last :=
  ⟨hsecond.cores, hsecond.live.trans hfirst.live⟩

theorem Keeps.trans {last : RegionManager} (hfirst : manager.Keeps next)
    (hsecond : next.Keeps last) : manager.Keeps last :=
  ⟨hsecond.cores, hsecond.owned.trans hfirst.owned⟩

theorem Moves.keeps (hmoves : manager.Moves next) : manager.Keeps next :=
  ⟨hmoves.cores, by rw [RegionManager.owned, hmoves.live, RegionManager.owned]⟩

/-- A slot and the queues exchange regions. -/
theorem HasCores.moves_set (hcores : manager.HasCores) (queues : RegionManager)
    (region : Region) (hslots : queues.coreLocalFreeRegions = manager.coreLocalFreeRegions)
    (hntSlots : queues.coreLocalFreeNtRegions = manager.coreLocalFreeNtRegions)
    (hbalance : own Region.isInvalid region + RegionManager.live queues.queued =
      own Region.isInvalid (manager.coreLocalFreeRegion core nt) +
        RegionManager.live manager.queued) :
    manager.Moves (queues.setCoreLocalFreeRegion core nt region) := by
  have hqueues : queues.HasCores :=
    ⟨hslots ▸ hcores.regions, hntSlots ▸ hcores.ntRegions⟩
  have hothers : queues.otherSlots core nt = manager.otherSlots core nt := by
    rw [otherSlots, otherSlots, hslots, hntSlots]
  constructor
  · exact hqueues.setCoreLocalFreeRegion region
  · calc
      RegionManager.live (queues.setCoreLocalFreeRegion core nt region).regions =
          RegionManager.live (manager.otherSlots core nt) +
            (own Region.isInvalid region + RegionManager.live queues.queued) := by
        rw [hqueues.live_set, hothers]
        ac_rfl
      _ = RegionManager.live manager.regions := by
        rw [hbalance, hcores.live_regions core nt]
        ac_rfl

theorem HasCores.pushFullRegion (hcores : manager.HasCores)
    (hpush : manager.pushFullRegion ops core nt = some next) : manager.Moves next := by
  simp only [RegionManager.pushFullRegion] at hpush
  split at hpush
  · cases hpush
    exact ⟨hcores, rfl⟩
  split at hpush
  all_goals
    split at hpush
    · cases hpush
    · rename_i hqueue
      cases hpush
      refine hcores.moves_set _ _ rfl rfl ?_
      rw [own_of_empty (ops.isInvalid_moved _)]
      simp only [queued, (pushBack_eq_some hqueue).2, live, held_append, held_cons, held_nil]
      ac_rfl

theorem HasCores.setNt (hcores : manager.HasCores) (region : Region) :
    manager.Moves (manager.setNt ops region) :=
  ⟨⟨hcores.regions, hcores.ntRegions⟩, rfl⟩

theorem HasCores.popFreeRegion (hcores : manager.HasCores) :
    manager.Moves (manager.popFreeRegion ops core nt).2 := by
  unfold RegionManager.popFreeRegion
  split
  · rename_i hinvalid
    have hpop : manager.Moves
        (match manager.freeRegions with
        | [] => (false, manager)
        | region :: freeRegions =>
            (true, { manager with freeRegions := freeRegions }.setCoreLocalFreeRegion
              core nt region)).2 := by
      split
      · exact ⟨hcores, rfl⟩
      · rename_i region freeRegions hfree
        refine hcores.moves_set _ _ rfl rfl ?_
        rw [own_of_empty hinvalid]
        simp only [queued, hfree, live, held_append, held_cons, zero_add]
        ac_rfl
    cases nt with
    | true => exact hpop.trans (hpop.cores.setNt _)
    | false => exact hpop
  · exact ⟨hcores, rfl⟩

/-- A refill moves regions between the core's slot and the queues. -/
theorem HasCores.tryRefill {success : Bool} (hcores : manager.HasCores)
    (hrefill : manager.tryRefillCoreLocalFreeRegion ops core nt =
      some (success, next)) : manager.Moves next := by
  obtain ⟨pushed, hpush, hpop⟩ := tryRefill_eq_some hrefill
  have hmoves := hcores.pushFullRegion hpush
  have hpopped : pushed.Moves (pushed.popFreeRegion ops core nt).2 :=
    hmoves.cores.popFreeRegion
  rw [hpop] at hpopped
  exact hmoves.trans hpopped

theorem HasCores.isInvalid_of_pushFullRegion (hcores : manager.HasCores)
    (hpush : manager.pushFullRegion ops core nt = some next) :
    (next.coreLocalFreeRegion core nt).isInvalid = true ∧
      next.freeRegions = manager.freeRegions := by
  have hslot : ∀ queues : RegionManager, queues.HasCores → ∀ region,
      ((queues.setCoreLocalFreeRegion core nt
        (ops.moved region)).coreLocalFreeRegion core nt).isInvalid = true := by
    intro queues hqueues region
    rw [hqueues.coreLocalFreeRegion_set, ops.isInvalid_moved]
  simp only [RegionManager.pushFullRegion] at hpush
  split at hpush
  · rename_i hinvalid
    cases hpush
    exact ⟨hinvalid, rfl⟩
  split at hpush
  all_goals
    split at hpush
    · cases hpush
    · cases hpush
      constructor
      · apply hslot
        exact ⟨hcores.regions, hcores.ntRegions⟩
      · exact freeRegions_setCoreLocalFreeRegion _

/-- A refill succeeds by taking the front of the free list. -/
theorem HasCores.length_freeRegions_of_refill (hcores : manager.HasCores)
    (hrefill : manager.tryRefillCoreLocalFreeRegion ops core nt = some (true, next)) :
    next.freeRegions.length + 1 = manager.freeRegions.length := by
  obtain ⟨pushed, hpush, hpop⟩ := tryRefill_eq_some hrefill
  obtain ⟨hinvalid, hfree⟩ := hcores.isInvalid_of_pushFullRegion hpush
  rw [← hfree]
  rw [RegionManager.popFreeRegion, if_pos hinvalid] at hpop
  cases hqueue : pushed.freeRegions with
  | nil => cases nt <;> simp [hqueue] at hpop
  | cons region freeRegions =>
      cases nt <;>
        simp only [hqueue, if_true, Bool.false_eq_true, if_false, Prod.mk.injEq,
          true_and] at hpop <;>
        simp [← hpop, RegionManager.setNt]

/-- What one round of the retry loop does. -/
theorem retryAllocateLocal_eq_some {objectSize retries : ℕ} {result : Option ℕ}
    (hretry : manager.retryAllocateLocal ops core nt objectSize retries =
      some (result, next)) :
    (∃ addr region, ops.allocateObject (manager.coreLocalFreeRegion core nt)
        objectSize = some (addr, region) ∧ result = some addr ∧
          next = manager.setCoreLocalFreeRegion core nt region) ∨
      ∃ success refilled, manager.tryRefillCoreLocalFreeRegion ops core nt =
        some (success, refilled) ∧
          (result = none ∧ next = refilled ∨
            ∃ fewer, retries = fewer + 1 ∧
              refilled.retryAllocateLocal ops core nt objectSize fewer =
                some (result, next)) := by
  rw [retryAllocateLocal.eq_def] at hretry
  dsimp only at hretry
  split at hretry
  · rename_i addr region hallocate
    cases hretry
    exact .inl ⟨addr, region, hallocate, rfl, rfl⟩
  · right
    split at hretry
    · cases hretry
    · rename_i refilled hrefill
      cases hretry
      exact ⟨false, _, hrefill, .inl ⟨rfl, rfl⟩⟩
    · rename_i refilled hrefill
      cases retries with
      | zero => cases hretry
      | succ fewer => exact ⟨true, refilled, hrefill, .inr ⟨fewer, rfl, hretry⟩⟩

/-- The address lies in a region that the manager owns. -/
def InOwned (manager : RegionManager) (addr size : ℕ) : Prop :=
  ∃ identity ∈ owned manager.regions, ∀ bufPtr ∈ identity.2,
    bufPtr ≤ addr ∧ addr + size ≤ bufPtr + Region.kSize

theorem HasCores.allocateObject {objectSize addr : ℕ} {region : Region}
    (hcores : manager.HasCores)
    (hallocate : ops.allocateObject (manager.coreLocalFreeRegion core nt) objectSize =
      some (addr, region)) :
    manager.Keeps (manager.setCoreLocalFreeRegion core nt region) ∧
      (manager.setCoreLocalFreeRegion core nt region).InOwned addr objectSize := by
  have hsame := ops.identity_allocateObject _ _ _ _ hallocate
  have hvalid := RegionOps.isInvalid_of_allocateObject hallocate
  have howned : owned (manager.setCoreLocalFreeRegion core nt region).regions =
      owned manager.regions := by
    rw [owned, owned, hcores.live_set, hcores.live_regions core nt, Multiset.map_add,
      Multiset.map_add, map_own_congr hsame, ← Multiset.map_add, ← Multiset.map_add]
  refine ⟨⟨hcores.setCoreLocalFreeRegion region, howned⟩,
    (manager.coreLocalFreeRegion core nt).identity, ?_, ?_⟩
  · rw [howned, owned, hcores.live_regions core nt, own_of_full hvalid]
    simp
  · intro bufPtr hbufPtr
    have hfits := ops.allocateObject_fits _ _ _ _ bufPtr hallocate hbufPtr
    omega

/-- The loop keeps the regions and finds its address in the core's own slot. -/
theorem HasCores.retryAllocateLocal {objectSize retries : ℕ} {result : Option ℕ}
    (hcores : manager.HasCores)
    (hretry : manager.retryAllocateLocal ops core nt objectSize retries =
      some (result, next)) :
    manager.Keeps next ∧ ∀ addr ∈ result, next.InOwned addr objectSize := by
  induction retries using Nat.strong_induction_on generalizing manager with
  | _ retries ih =>
      rcases retryAllocateLocal_eq_some hretry with
        ⟨addr, region, hallocate, rfl, rfl⟩ | ⟨success, refilled, hrefill, hrest⟩
      · obtain ⟨hkeeps, hinside⟩ := hcores.allocateObject hallocate
        refine ⟨hkeeps, ?_⟩
        rintro _ ⟨⟩
        exact hinside
      · have hkeeps := (hcores.tryRefill hrefill).keeps
        rcases hrest with ⟨rfl, rfl⟩ | ⟨fewer, hfewer, hretry⟩
        · exact ⟨hkeeps, by simp⟩
        · obtain ⟨hlater, hinside⟩ := ih fewer (by omega) hkeeps.cores hretry
          exact ⟨hkeeps.trans hlater, hinside⟩

/-- The bound on the retries does not cut the loop short. -/
theorem HasCores.retryAllocateLocal_succ {objectSize retries : ℕ}
    (hcores : manager.HasCores) (hbound : manager.freeRegions.length ≤ retries) :
    manager.retryAllocateLocal ops core nt objectSize (retries + 1) =
      manager.retryAllocateLocal ops core nt objectSize retries := by
  induction retries generalizing manager with
  | zero =>
      rw [RegionManager.retryAllocateLocal, RegionManager.retryAllocateLocal]
      split
      · rfl
      · split
        · rfl
        · rfl
        · rename_i refilled hrefill
          have hlength := hcores.length_freeRegions_of_refill hrefill
          omega
  | succ retries ih =>
      rw [RegionManager.retryAllocateLocal, RegionManager.retryAllocateLocal]
      split
      · rfl
      · split
        · rfl
        · rfl
        · rename_i refilled hrefill
          have hlength := hcores.length_freeRegions_of_refill hrefill
          exact ih (hcores.tryRefill hrefill).cores (by omega)

theorem HasCores.allocateLocalObjectNb {objectSize : ℕ} {result : Option ℕ}
    (hcores : manager.HasCores)
    (hallocate : manager.allocateLocalObjectNb ops core nt objectSize =
      some (result, next)) :
    manager.Keeps next ∧ ∀ addr ∈ result, next.InOwned addr objectSize :=
  hcores.retryAllocateLocal hallocate

theorem HasCores.pushFreeRegion {region : Region} (hcores : manager.HasCores)
    (hpush : manager.pushFreeRegion ops region = some next) :
    next.HasCores ∧ owned next.regions = owned [region] + owned manager.regions := by
  obtain ⟨-, rfl⟩ := pushFreeRegion_eq_some hpush
  constructor
  · exact ⟨hcores.regions, hcores.ntRegions⟩
  · simp only [RegionManager.regions, owned_append,
      owned_singleton_congr (ops.identity_reset region)]
    ac_rfl

/-! ## Picking -/

theorem ntRetry_perm (isGcable : Region → Bool) (retries : ℕ) (queue : List Region) :
    ((ntRetry isGcable retries queue).1.toList ++
      (ntRetry isGcable retries queue).2).Perm queue := by
  fun_induction ntRetry isGcable retries queue with
  | case1 => simp
  | case2 => simp
  | case3 region queue => simp
  | case4 region queue hgcable retries ih =>
      exact ih.trans (List.perm_append_singleton region queue)

theorem tRetry_perm (isGcable : Region → Bool) (retries : ℕ) (queue : List Region) :
    ((tRetry isGcable retries queue).1.toList ++
      (tRetry isGcable retries queue).2).Perm queue := by
  fun_induction tRetry isGcable retries queue with
  | case1 => simp
  | case2 => simp
  | case3 => simp
  | case4 region queue hgcable retries ih => exact ih

theorem HasCores.popUsedRegion (hcores : manager.HasCores) (retries : ℕ)
    (isGcable : Region → Bool) :
    (manager.popUsedRegion retries isGcable).2.HasCores ∧
      live (manager.popUsedRegion retries isGcable).1.toList +
        live (manager.popUsedRegion retries isGcable).2.regions =
          live manager.regions := by
  have hnt : live _ = live _ := Library.held_of_perm
    (ntRetry_perm isGcable (retries + 1) manager.ntUsedRegions)
  have ht : live _ = live _ := Library.held_of_perm
    (tRetry_perm isGcable (retries + 1) manager.usedRegions)
  unfold RegionManager.popUsedRegion
  split
  · rename_i region ntUsedRegions hpop
    rw [hpop] at hnt
    constructor
    · exact ⟨hcores.regions, hcores.ntRegions⟩
    · simp only [RegionManager.regions, live, held_append] at hnt ⊢
      rw [← hnt]
      ac_rfl
  · rename_i ntUsedRegions hpop
    rw [hpop] at hnt
    constructor
    · exact ⟨hcores.regions, hcores.ntRegions⟩
    · simp only [RegionManager.regions, live, held_append, Option.toList_none, held_nil,
        zero_add] at hnt ht ⊢
      rw [← hnt, ← ht]
      ac_rfl

theorem HasCores.owned_popUsedRegion (hcores : manager.HasCores) (retries : ℕ)
    (isGcable : Region → Bool) :
    owned (manager.popUsedRegion retries isGcable).1.toList +
        owned (manager.popUsedRegion retries isGcable).2.regions =
      owned manager.regions := by
  rw [owned, owned, owned, ← Multiset.map_add, (hcores.popUsedRegion retries isGcable).2]

/-- Picked regions have left the manager. -/
theorem HasCores.pickLoop (hcores : manager.HasCores) (retries : ℕ)
    (isGcable : ℕ → Region → Bool) (remaining : ℕ) (fromRegions : List Region) :
    (manager.pickLoop retries isGcable remaining fromRegions).2.HasCores ∧
      live (manager.pickLoop retries isGcable remaining fromRegions).1 +
        live (manager.pickLoop retries isGcable remaining fromRegions).2.regions =
          live fromRegions + live manager.regions := by
  fun_induction RegionManager.pickLoop retries isGcable remaining fromRegions manager with
  | case1 remaining fromRegions manager next hpop =>
      have hpicked := hcores.popUsedRegion retries (isGcable remaining)
      rw [hpop] at hpicked
      simpa using hpicked
  | case2 fromRegions manager region next hpop =>
      have hpicked := hcores.popUsedRegion retries (isGcable 0)
      rw [hpop] at hpicked
      refine ⟨hpicked.1, ?_⟩
      simp only [← hpicked.2, live, held_append, Option.toList_some]
      ac_rfl
  | case3 fromRegions manager region next remaining hpop ih =>
      have hpicked := hcores.popUsedRegion retries (isGcable (remaining + 1))
      rw [hpop] at hpicked
      obtain ⟨hnext, hbalance⟩ := ih hpicked.1
      refine ⟨hnext, ?_⟩
      simp only [hbalance, ← hpicked.2, live, held_append, Option.toList_some]
      ac_rfl

theorem HasCores.pickFromRegions (hcores : manager.HasCores) (retries : ℕ)
    (isGcable : ℕ → Region → Bool) (numRegions : ℕ) :
    (manager.pickFromRegions retries isGcable numRegions).2.HasCores ∧
      live (manager.pickFromRegions retries isGcable numRegions).1 +
        live (manager.pickFromRegions retries isGcable numRegions).2.regions =
          live manager.regions := by
  have hpicked := hcores.pickLoop retries isGcable (numRegions - 1) []
  simpa only [live, held_nil, zero_add, RegionManager.pickFromRegions] using hpicked

end Conservation

end RegionManager

end DynamicSwap
