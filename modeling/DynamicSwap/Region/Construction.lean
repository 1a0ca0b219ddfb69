import DynamicSwap.Core.Helpers
import DynamicSwap.Library.Binary64

/-!
# Construction of a region manager

`RegionManager::RegionManager` computes the number of regions as a `double`,
sizes the three queues and the local buffer from it, carves two regions per
core of `FOR_ALL_SOCKET0_CORES` and pushes one free region per remaining count.
The loop macro visits all of `kNumCPUs` cores while the count is reduced by
`2 * kNumSocket1CPUs` only, so more regions are carved than the buffer holds.
-/

namespace DynamicSwap

open Library.Binary64

/-- Mutable header at the start of a region's buffer. -/
structure RegionHeader where
  refCnt : ℕ := 0
  nt : Bool := false
  deriving DecidableEq

/-- A `Region` value: what moves between the queues.  The header lives in the
buffer and does not move with it. -/
structure Region where
  regionIdx : BitVec 32
  bufPtr : Option ℕ
  firstFreeByteIdx : ℕ := Region.kHeaderSize
  deriving DecidableEq

namespace Region

/-- The default-constructed region. -/
def invalid : Region where
  regionIdx := kInvalidIdx
  bufPtr := none

def isInvalid (region : Region) : Bool :=
  region.regionIdx == kInvalidIdx

def isLocal (region : Region) : Bool :=
  region.bufPtr.isSome

end Region

/-- The containers of a `RegionManager`.  Core-local regions are listed by core
identifier; the queues list their front first and share one capacity. -/
structure RegionManager where
  coreLocalFreeRegions : List Region
  coreLocalFreeNtRegions : List Region
  freeRegions : List Region
  usedRegions : List Region
  ntUsedRegions : List Region
  capacity : ℕ
  headers : BitVec 32 → RegionHeader

namespace RegionManager

/-- `CircularBuffer::push_back`: refused once the buffer holds `capacity`. -/
def pushBack (capacity : ℕ) (queue : List Region) (region : Region) :
    Option (List Region) :=
  if queue.length < capacity then some (queue ++ [region]) else none

theorem pushBack_eq_some {capacity : ℕ} {queue pushed : List Region} {region : Region}
    (hpush : pushBack capacity queue region = some pushed) :
    queue.length < capacity ∧ pushed = queue ++ [region] := by
  rw [pushBack, Option.ite_none_right_eq_some, Option.some.injEq] at hpush
  exact ⟨hpush.1, hpush.2.symm⟩

theorem pushBack_eq_none {capacity : ℕ} {queue : List Region} {region : Region}
    (hpush : pushBack capacity queue region = none) : capacity ≤ queue.length := by
  rw [pushBack, ite_eq_right_iff] at hpush
  by_contra hroom
  cases hpush (not_le.mp hroom)

/-- Locals captured by the constructor's `new_region_fn`. -/
structure Carving where
  idx : BitVec 32
  headers : BitVec 32 → RegionHeader

/-- `new_region_fn`: the next region, whose index is a wrapping `uint32_t`. -/
def newRegionFn (isLocal : Bool) (localCachePtr : ℕ) (nt : Bool)
    (carving : Carving) : Region × Carving :=
  ({ regionIdx := carving.idx
     bufPtr := if isLocal then
        some (localCachePtr + carving.idx.toNat * Region.kSize) else none },
    { idx := carving.idx + 1
      headers := Function.update carving.headers carving.idx
        { refCnt := 0, nt := nt && isLocal } })

/-- The `FOR_ALL_SOCKET0_CORES` loop: one region of each kind per core. -/
def carveCores (isLocal : Bool) (localCachePtr : ℕ) :
    List ℕ → Carving → List Region × List Region × Carving
  | [], carving => ([], [], carving)
  | _ :: cores, carving =>
      let (region, carving) := newRegionFn isLocal localCachePtr false carving
      let (ntRegion, carving) := newRegionFn isLocal localCachePtr true carving
      let (regions, ntRegions, carving) :=
        carveCores isLocal localCachePtr cores carving
      (region :: regions, ntRegion :: ntRegions, carving)

/-- The loop that fills the free list; `none` is a failed `BUG_ON`. -/
def carveFree (isLocal : Bool) (localCachePtr capacity : ℕ) :
    ℕ → List Region → Carving → Option (List Region × Carving)
  | 0, queue, carving => some (queue, carving)
  | count + 1, queue, carving =>
      let (region, carving) := newRegionFn isLocal localCachePtr false carving
      match pushBack capacity queue region with
      | none => none
      | some queue => carveFree isLocal localCachePtr capacity count queue carving

/-- `ceil(size / static_cast<double>(Region::kSize))`.  The division is exact
because the divisor is a power of two. -/
def freeRegionsCount (size : ℕ) : ℕ :=
  toDouble size ⌈/⌉ Region.kSize

/-- Iterations of `for (uint64_t i = 0; i < count; i++)` for a `double` count:
the index is converted for each comparison. -/
def iterations (count : ℕ) : ℕ :=
  ((List.range count).takeWhile fun index => toDouble index < count).length

/-- The constructor; `none` when it exits for too small a size. -/
def construct (size : ℕ) (isLocal : Bool) (localCachePtr : ℕ) :
    Option RegionManager :=
  let count := freeRegionsCount size
  if count ≤ 2 * kNumSocket1CPUs then none
  else
    let (regions, ntRegions, carving) :=
      carveCores isLocal localCachePtr forAllSocket0Cores ⟨0, fun _ => {}⟩
    match carveFree isLocal localCachePtr count
        (iterations (toDouble (count - 2 * kNumSocket1CPUs))) [] carving with
    | none => none
    | some (freeRegions, carving) =>
        some
          { coreLocalFreeRegions := regions
            coreLocalFreeNtRegions := ntRegions
            freeRegions := freeRegions
            usedRegions := []
            ntUsedRegions := []
            capacity := count
            headers := carving.headers }

/-- Every region a manager owns. -/
def regions (manager : RegionManager) : List Region :=
  manager.coreLocalFreeRegions ++ manager.coreLocalFreeNtRegions ++
    manager.freeRegions ++ manager.usedRegions ++ manager.ntUsedRegions

def indices (manager : RegionManager) : List ℕ :=
  manager.regions.map fun region => region.regionIdx.toNat

/-- The regions of a manager divide the space of a size: distinct consecutive
indices, buffer slices inside the local buffer, addresses below the size
rounded up to whole regions. -/
structure PartitionsSpace (size localCachePtr : ℕ) (manager : RegionManager) :
    Prop where
  indices : ∃ count ≤ size ⌈/⌉ Region.kSize,
    manager.indices.Perm (List.range count)
  slices : ∀ region ∈ manager.regions, ∀ bufPtr, region.bufPtr = some bufPtr →
    localCachePtr ≤ bufPtr ∧ bufPtr + Region.kSize ≤
      localCachePtr + (size ⌈/⌉ Region.kSize) * Region.kSize
  addresses : ∀ region ∈ manager.regions,
    region.regionIdx.toNat * Region.kSize + Region.kSize ≤
      (size ⌈/⌉ Region.kSize) * Region.kSize

/-! ## The loops -/

section Loops

variable (isLocal : Bool) (localCachePtr : ℕ)

theorem carveCores_idx (cores : List ℕ) (carving : Carving) :
    (carveCores isLocal localCachePtr cores carving).2.2.idx =
      carving.idx + BitVec.ofNat 32 (2 * cores.length) := by
  induction cores generalizing carving with
  | nil => simp [carveCores]
  | cons core cores ih =>
      simp only [carveCores, newRegionFn, ih, List.length_cons]
      rw [Nat.mul_succ, BitVec.ofNat_add]
      have htwo : BitVec.ofNat 32 2 = 1 + 1 := rfl
      rw [htwo]
      ac_rfl

theorem length_carveCores (cores : List ℕ) (carving : Carving) :
    (carveCores isLocal localCachePtr cores carving).1.length = cores.length ∧
      (carveCores isLocal localCachePtr cores carving).2.1.length =
        cores.length := by
  induction cores generalizing carving with
  | nil => simp [carveCores]
  | cons core cores ih => simp [carveCores, ih]

/-- Region `position` of a carving that started at index `start`. -/
def carved (start : BitVec 32) (position : ℕ) : Region :=
  (newRegionFn isLocal localCachePtr false
    ⟨start + BitVec.ofNat 32 position, fun _ => {}⟩).1

theorem newRegionFn_fst (nt : Bool) (carving : Carving) :
    (newRegionFn isLocal localCachePtr nt carving).1 =
      carved isLocal localCachePtr carving.idx 0 := by
  simp [carved, newRegionFn]

theorem carved_succ (start : BitVec 32) (position : ℕ) :
    carved isLocal localCachePtr (start + 1) position =
      carved isLocal localCachePtr start (position + 1) := by
  have hone : BitVec.ofNat 32 1 = 1 := rfl
  have hidx : start + 1 + BitVec.ofNat 32 position =
      start + BitVec.ofNat 32 (position + 1) := by
    rw [BitVec.ofNat_add, hone]
    ac_rfl
  rw [carved, carved, hidx]

/-- The core loop takes the even positions for regions and the odd ones for nt
regions. -/
theorem carveCores_eq (cores : List ℕ) (carving : Carving) :
    (carveCores isLocal localCachePtr cores carving).1 =
        (List.range cores.length).map (fun core =>
          carved isLocal localCachePtr carving.idx (2 * core)) ∧
      (carveCores isLocal localCachePtr cores carving).2.1 =
        (List.range cores.length).map (fun core =>
          carved isLocal localCachePtr carving.idx (2 * core + 1)) := by
  induction cores generalizing carving with
  | nil => simp [carveCores]
  | cons core cores ih =>
      have hshift : ∀ position,
          carved isLocal localCachePtr (carving.idx + 1 + 1) position =
            carved isLocal localCachePtr carving.idx (position + 1 + 1) := by
        intro position
        rw [carved_succ, carved_succ]
      simp only [carveCores, newRegionFn_fst, ih, List.length_cons,
        List.range_succ_eq_map, List.map_cons, List.map_map]
      refine ⟨congrArg (_ :: ·) ?_, ?_⟩
      · apply List.map_congr_left
        intro position _
        exact hshift _
      · refine congrArg₂ (· :: ·) (carved_succ _ _ _ _) ?_
        apply List.map_congr_left
        intro position _
        exact hshift _

/-- When no `BUG_ON` fires the free-list loop has pushed the next regions in
order. -/
theorem carveFree_eq {capacity count : ℕ} {queue final : List Region}
    {carving last : Carving}
    (hcarve : carveFree isLocal localCachePtr capacity count queue carving =
      some (final, last)) :
    final = queue ++ (List.range count).map
      (carved isLocal localCachePtr carving.idx) := by
  induction count generalizing queue carving with
  | zero =>
      simp only [carveFree, Option.some.injEq, Prod.mk.injEq] at hcarve
      simp [hcarve.1]
  | succ count ih =>
      simp only [carveFree, newRegionFn_fst] at hcarve
      cases hpush : pushBack capacity queue
          (carved isLocal localCachePtr carving.idx 0) with
      | none => simp [hpush] at hcarve
      | some pushed =>
          rw [hpush] at hcarve
          rw [ih hcarve, (pushBack_eq_some hpush).2, List.range_succ_eq_map, List.map_cons,
            List.map_map, List.append_assoc, List.singleton_append]
          congr 2
          apply List.map_congr_left
          intro position _
          exact carved_succ isLocal localCachePtr carving.idx position

/-- No `BUG_ON` fires while the queue has room for the whole loop. -/
theorem exists_carveFree {capacity count : ℕ} {queue : List Region}
    (carving : Carving) (hroom : queue.length + count ≤ capacity) :
    ∃ freeRegions last, carveFree isLocal localCachePtr capacity count queue carving =
      some (freeRegions, last) := by
  induction count generalizing queue carving with
  | zero => exact ⟨queue, carving, rfl⟩
  | succ count ih =>
      have hlt : queue.length < capacity := by omega
      rw [carveFree]
      simp only [pushBack, if_pos hlt]
      apply ih
      rw [List.length_append, List.length_singleton]
      omega

end Loops

theorem iterations_le (count : ℕ) : iterations count ≤ count := by
  calc
    iterations count ≤ (List.range count).length :=
      (List.takeWhile_sublist _).length_le
    _ = count := List.length_range

/-- Indices below `2 ^ 53` are converted exactly, so the loop runs through all
of them. -/
theorem le_iterations {bound count : ℕ} (hcount : bound ≤ count)
    (hexact : bound ≤ 2 ^ 53) : bound ≤ iterations count := by
  have hsplit : List.range count =
      List.range bound ++ (List.range (count - bound)).map (bound + ·) := by
    rw [← List.range_add, Nat.add_sub_cancel' hcount]
  have hall : ∀ index ∈ List.range bound,
      decide (toDouble index < count) = true := by
    intro index hindex
    have hlt := List.mem_range.mp hindex
    rw [decide_eq_true_iff, toDouble_of_lt (by omega)]
    omega
  rw [iterations, hsplit, List.takeWhile_append_of_pos hall]
  simp

/-- Number of regions the constructor creates. -/
def carvedCount (size : ℕ) : ℕ :=
  2 * kNumCPUs +
    iterations (toDouble (freeRegionsCount size - 2 * kNumSocket1CPUs))

theorem carved_add (isLocal : Bool) (localCachePtr offset position : ℕ) :
    carved isLocal localCachePtr (BitVec.ofNat 32 offset) position =
      carved isLocal localCachePtr 0 (offset + position) := by
  have hidx : BitVec.ofNat 32 offset + BitVec.ofNat 32 position =
      0 + BitVec.ofNat 32 (offset + position) := by
    rw [BitVec.ofNat_add, zero_add]
  rw [carved, carved, hidx]

/-- An accepted size and the results of the two loops. -/
theorem construct_eq_some {size localCachePtr : ℕ} {isLocal : Bool} {manager : RegionManager}
    (hconstruct : construct size isLocal localCachePtr = some manager) :
    2 * kNumSocket1CPUs < freeRegionsCount size ∧
      ∃ freeRegions last,
        carveFree isLocal localCachePtr (freeRegionsCount size)
          (iterations (toDouble (freeRegionsCount size - 2 * kNumSocket1CPUs))) []
          (carveCores isLocal localCachePtr forAllSocket0Cores ⟨0, fun _ => {}⟩).2.2 =
            some (freeRegions, last) ∧
        manager =
          { coreLocalFreeRegions :=
              (carveCores isLocal localCachePtr forAllSocket0Cores ⟨0, fun _ => {}⟩).1
            coreLocalFreeNtRegions :=
              (carveCores isLocal localCachePtr forAllSocket0Cores ⟨0, fun _ => {}⟩).2.1
            freeRegions := freeRegions
            usedRegions := []
            ntUsedRegions := []
            capacity := freeRegionsCount size
            headers := last.headers } := by
  simp only [construct] at hconstruct
  split at hconstruct
  · cases hconstruct
  · rename_i haccepted
    split at hconstruct
    · cases hconstruct
    · rename_i freeRegions last hcarve
      exact ⟨not_le.mp haccepted, freeRegions, last, hcarve, (Option.some.inj hconstruct).symm⟩

/-- The constructor creates two regions per core of the macro and one per
iteration of the free-list loop, all of them at consecutive positions. -/
theorem regions_construct {size localCachePtr : ℕ} {isLocal : Bool}
    {manager : RegionManager}
    (hconstruct : construct size isLocal localCachePtr = some manager) :
    manager.regions.Perm
      ((List.range (carvedCount size)).map (carved isLocal localCachePtr 0)) := by
  obtain ⟨-, freeRegions, last, hcarve, rfl⟩ := construct_eq_some hconstruct
  have hcores := carveCores_eq isLocal localCachePtr forAllSocket0Cores
    ⟨0, fun _ => {}⟩
  have hfree := carveFree_eq isLocal localCachePtr hcarve
  rw [carveCores_idx, zero_add, List.nil_append] at hfree
  have hevenOdd : ((List.range kNumCPUs).map (2 * ·) ++
      (List.range kNumCPUs).map (2 * · + 1)).Perm
        (List.range (2 * kNumCPUs)) := by
    decide
  simp only [regions, hcores.1, hcores.2, hfree, List.append_nil,
    length_forAllSocket0Cores, carvedCount, List.range_add, List.map_append,
    List.map_map]
  refine List.Perm.append ?_ (List.Perm.of_eq ?_)
  · have hmapped := hevenOdd.map (carved isLocal localCachePtr 0)
    simpa only [List.map_append, List.map_map, Function.comp_def] using hmapped
  · apply List.map_congr_left
    intro position _
    exact carved_add isLocal localCachePtr _ position

theorem length_indices_construct {size localCachePtr : ℕ} {isLocal : Bool}
    {manager : RegionManager}
    (hconstruct : construct size isLocal localCachePtr = some manager) :
    manager.indices.length = carvedCount size := by
  have hlength := (regions_construct hconstruct).length_eq
  simpa [indices] using hlength

theorem toNat_regionIdx_carved (isLocal : Bool) (localCachePtr position : ℕ) :
    (carved isLocal localCachePtr 0 position).regionIdx.toNat =
      position % 2 ^ 32 := by
  simp [carved, newRegionFn]

/-- As long as the `uint32_t` counter does not wrap, the indices are exactly
the numbers below the number of regions. -/
theorem indices_construct {size localCachePtr : ℕ} {isLocal : Bool}
    {manager : RegionManager}
    (hconstruct : construct size isLocal localCachePtr = some manager)
    (hwrap : carvedCount size ≤ 2 ^ 32) :
    manager.indices.Perm (List.range (carvedCount size)) := by
  have hmapped := (regions_construct hconstruct).map
    fun region => region.regionIdx.toNat
  have hidentity : ((List.range (carvedCount size)).map
      (carved isLocal localCachePtr 0)).map
        (fun region => region.regionIdx.toNat) =
      List.range (carvedCount size) := by
    rw [List.map_map]
    conv_rhs => rw [← List.map_id (List.range (carvedCount size))]
    apply List.map_congr_left
    intro position hposition
    have hlt := List.mem_range.mp hposition
    rw [Function.comp_apply, toNat_regionIdx_carved,
      Nat.mod_eq_of_lt (by omega), id]
  rwa [hidentity] at hmapped

/-! ## How many regions are carved -/

/-- Every accepted size whose count is exact gets its manager. -/
theorem exists_construct {size : ℕ} (isLocal : Bool) (localCachePtr : ℕ)
    (haccepted : 2 * kNumSocket1CPUs < freeRegionsCount size)
    (hexact : freeRegionsCount size ≤ 2 ^ 53) :
    ∃ manager, construct size isLocal localCachePtr = some manager := by
  have hiterations := iterations_le
    (toDouble (freeRegionsCount size - 2 * kNumSocket1CPUs))
  have hreduced : freeRegionsCount size - 2 * kNumSocket1CPUs < 2 ^ 53 := by
    simp only [kNumSocket1CPUs] at haccepted ⊢
    omega
  rw [toDouble_of_lt hreduced] at hiterations
  have hroom : ([] : List Region).length +
      iterations (toDouble (freeRegionsCount size - 2 * kNumSocket1CPUs)) ≤
        freeRegionsCount size := by
    rw [toDouble_of_lt hreduced, List.length_nil]
    omega
  obtain ⟨freeRegions, last, hcarve⟩ := exists_carveFree isLocal localCachePtr
    (carveCores isLocal localCachePtr forAllSocket0Cores ⟨0, fun _ => {}⟩).2.2 hroom
  simp only [construct, if_neg (not_le.mpr haccepted), hcarve]
  exact ⟨_, rfl⟩

/-- For a count that fits the `uint32_t` index the floating-point detour is
exact: the regions exceed the size rounded up to whole regions by the ones
carved for cores that the count was not reduced for. -/
theorem carvedCount_eq {size : ℕ}
    (haccepted : 2 * kNumSocket1CPUs < freeRegionsCount size)
    (hsmall : freeRegionsCount size < 2 ^ 32) :
    carvedCount size =
      size ⌈/⌉ Region.kSize + 2 * (kNumCPUs - kNumSocket1CPUs) := by
  have hsize : toDouble size < 2 ^ 53 := by
    have hle : toDouble size ≤ freeRegionsCount size * Region.kSize := by
      have hceil : toDouble size ≤ Region.kSize • freeRegionsCount size :=
        le_smul_ceilDiv (by decide)
      rwa [smul_eq_mul, Nat.mul_comm] at hceil
    rw [Region.kSize_eq] at hle
    omega
  have hcount : freeRegionsCount size = size ⌈/⌉ Region.kSize := by
    rw [freeRegionsCount, toDouble_eq_of_lt hsize]
  have hiterations : iterations (toDouble
      (freeRegionsCount size - 2 * kNumSocket1CPUs)) =
        freeRegionsCount size - 2 * kNumSocket1CPUs := by
    rw [toDouble_of_lt (by omega)]
    exact le_antisymm (iterations_le _) (le_iterations le_rfl (by omega))
  rw [carvedCount, hiterations, ← hcount]
  simp only [kNumCPUs, kNumSocket1CPUs] at haccepted ⊢
  omega

/-- For a larger count the index wraps: more regions than `uint32_t` values. -/
theorem two_pow_lt_carvedCount {size : ℕ}
    (hlarge : 2 ^ 32 ≤ freeRegionsCount size) : 2 ^ 32 < carvedCount size := by
  have hreduced : freeRegionsCount size - 2 * kNumSocket1CPUs ≠ 0 := by
    simp only [kNumSocket1CPUs]
    omega
  have hdouble : 2 ^ 32 - 2 * kNumSocket1CPUs ≤
      toDouble (freeRegionsCount size - 2 * kNumSocket1CPUs) := by
    by_cases hexact : freeRegionsCount size - 2 * kNumSocket1CPUs < 2 ^ 53
    · rw [toDouble_of_lt hexact]
      omega
    · have hlog := (Nat.le_log2 hreduced).mpr (not_lt.mp hexact)
      have hlead := leading_le_toDouble hreduced
      have hpow := Nat.pow_le_pow_right (show 0 < 2 by norm_num) hlog
      omega
  have hiterations := le_iterations hdouble (by decide)
  simp only [carvedCount, kNumCPUs, kNumSocket1CPUs] at hiterations ⊢
  omega

/-- No accepted size is partitioned: either more regions are carved than the
space holds, or their indices wrap and collide. -/
theorem not_partitionsSpace_construct {size localCachePtr : ℕ} {isLocal : Bool}
    {manager : RegionManager}
    (hconstruct : construct size isLocal localCachePtr = some manager) :
    ¬ PartitionsSpace size localCachePtr manager := by
  intro hpartition
  obtain ⟨count, hcount, hperm⟩ := hpartition.indices
  have hlength : carvedCount size = count := by
    rw [← length_indices_construct hconstruct, hperm.length_eq,
      List.length_range]
  by_cases hsmall : freeRegionsCount size < 2 ^ 32
  · have hcarved := carvedCount_eq (construct_eq_some hconstruct).1 hsmall
    simp only [kNumCPUs, kNumSocket1CPUs] at hcarved
    omega
  · have hwrap := two_pow_lt_carvedCount (not_lt.mp hsmall)
    have hmem : 2 ^ 32 ∈ manager.indices :=
      hperm.mem_iff.mpr (List.mem_range.mpr (by omega))
    obtain ⟨region, -, hregion⟩ := List.mem_map.mp hmem
    have := region.regionIdx.isLt
    omega

/-- The cache size of the shipped test is accepted and not partitioned. -/
theorem not_partitionsSpace_construct_16384 :
    ∃ manager, construct 16384 true 0 = some manager ∧
      ¬ PartitionsSpace 16384 0 manager := by
  have hsome : (construct 16384 true 0).isSome = true := by decide +kernel
  obtain ⟨manager, hmanager⟩ := Option.isSome_iff_exists.mp hsome
  exact ⟨manager, hmanager, not_partitionsSpace_construct hmanager⟩

/-- The shipped test's cache of 16 regions: 52 are carved, so the slices of 36
lie beyond the buffer. -/
theorem not_forall_partitionsSpace :
    ¬ ∀ (size localCachePtr : ℕ) (isLocal : Bool) (manager : RegionManager),
      construct size isLocal localCachePtr = some manager →
        PartitionsSpace size localCachePtr manager := by
  intro hclaim
  have hsome : (construct 16384 true 0).isSome = true := by decide +kernel
  obtain ⟨manager, hmanager⟩ := Option.isSome_iff_exists.mp hsome
  obtain ⟨count, hcount, hperm⟩ := (hclaim 16384 0 true manager hmanager).indices
  have hlength := length_indices_construct hmanager
  have hcarved : carvedCount 16384 = 52 := by decide +kernel
  have hspace : 16384 ⌈/⌉ Region.kSize = 16 := by decide +kernel
  rw [hperm.length_eq, List.length_range, hcarved] at hlength
  omega

end RegionManager

end DynamicSwap
