import DynamicSwap.Allocation.NonBlocking

/-!
# Blocking allocation of unique pointers

`allocate_generic_unique_ptr` differs from its `_nb` form in the loop that finds
local space: after a failed refill it waits for the collector and tries again.
With nobody else running the wait gains nothing, so the two forms agree: the
blocking one returns exactly where the other succeeds, with the same object.
-/

namespace DynamicSwap

namespace RegionManager

variable {ops : RegionOps} {manager next : RegionManager} {core : Fin kNumCPUs}
  {nt waits : Bool} {objectSize addr tries : ℕ}

/-- Once the free regions are used up no address is found any more. -/
theorem RetriesNb.ne_some_of_exhausted {refills : ℕ} (hcores : manager.HasCores)
    (hfree : manager.freeRegions = [])
    (hinvalid : (manager.coreLocalFreeRegion core nt).isInvalid = true) :
    ¬ RetriesNb ops core nt objectSize manager refills (some addr, next) := by
  intro hretries
  obtain ⟨-, hregion⟩ := hretries.spec hcores
  obtain ⟨region, hmem, allocated, hallocate⟩ := hregion addr rfl
  rw [hfree, List.mem_singleton] at hmem
  rw [← hmem, RegionOps.isInvalid_of_allocateObject hallocate] at hinvalid
  cases hinvalid

/-- A blocking loop that is left takes the way of the other loop, by induction on
the tries; a failed refill leaves nothing to find. -/
theorem HasCores.retriesNb_of_retryAllocate (hcores : manager.HasCores)
    (hreturns : manager.retryAllocate ops core nt objectSize waits tries = some (addr, next)) :
    ∃ refills, RetriesNb ops core nt objectSize manager refills (some addr, next) := by
  induction tries generalizing manager with
  | zero => cases hreturns
  | succ tries ih =>
      rw [RegionManager.retryAllocate] at hreturns
      split at hreturns
      · cases hreturns
        exact ⟨0, .allocated ‹_›⟩
      rename_i hfull
      split at hreturns
      · cases hreturns
      rename_i success refilled hrefill
      have hroom := roomFor_of_tryRefill hrefill
      rw [Option.ite_none_left_eq_some] at hreturns
      by_cases hfree : manager.freeRegions = []
      · obtain ⟨_, hsame, hpasses, hinvalid⟩ := hcores.refill_nil hroom hfree
        cases hrefill.symm.trans hsame
        obtain ⟨refills, hretries⟩ := ih hpasses.hasCores hreturns.2
        have hnone : refilled.freeRegions = [] := by
          rw [hpasses.freeRegions, hfree, List.tail_nil]
        exact absurd hretries (RetriesNb.ne_some_of_exhausted hpasses.hasCores hnone hinvalid)
      · obtain ⟨_, hsame, hpasses, -⟩ := hcores.refill_cons hroom hfree
        cases hrefill.symm.trans hsame
        obtain ⟨refills, hretries⟩ := ih hpasses.hasCores hreturns.2
        exact ⟨refills + 1, .retried hfull hrefill hretries⟩

/-- The two loops find the same address in the same region. -/
theorem HasCores.exists_retryAllocate_iff (hcores : manager.HasCores) (waits : Bool) :
    (∃ tries, manager.retryAllocate ops core nt objectSize waits tries = some (addr, next)) ↔
      manager.allocateLocalObjectNb ops core nt objectSize = some (some addr, next) := by
  constructor
  · rintro ⟨tries, hreturns⟩
    obtain ⟨refills, hretries⟩ := hcores.retriesNb_of_retryAllocate hreturns
    exact hretries.retryAllocateLocal_eq hcores le_rfl
  · intro hallocate
    obtain ⟨refills, hretries⟩ := RegionManager.exists_retriesNb hallocate
    exact ⟨refills + 1, hretries.retryAllocate_eq waits rfl⟩

end RegionManager

namespace NonBlocking

variable {Meta : Type} (runtime : Runtime Meta) (schedule : Schedule)

/-- `allocate_local_object(false, object_size)`; `none` if it has not returned
after `tries`. -/
def allocateLocalObject (objectSize : BitVec 16) (almostEmpty : Bool) (tries : ℕ)
    (space : Space Meta) : Option (ℕ × Space Meta) :=
  match RegionManager.allocateLocalObject runtime.ops schedule.core false objectSize
      almostEmpty tries space.cache with
  | none => none
  | some (addr, cache) =>
      some (addr, updateRefCnt runtime addr (· + 1) { space with cache := cache })

/-- `allocate_generic_unique_ptr`, whose result stands at `ptr`; `none` where it
does not return. -/
def allocateGenericUniquePtr (ptr : Slot) (dsId : BitVec 8) (itemSize : BitVec 16)
    (optionalId : Option (BitVec 8 × (ℕ → BitVec 8))) (almostEmpty : Bool) (tries : ℕ)
    (space : Space Meta) : Option (Space Meta) :=
  if itemSize.toNat ≤ runtime.limits.kMaxObjectDataSize then
    let objectSize := ObjectSize.allocateLocalObject
      (runtime.limits.kHeaderSize + itemSize.toNat +
        ((optionalId.map Prod.fst).getD runtime.limits.kVanillaPtrObjectIDSize).toNat)
    match allocateLocalObject runtime schedule objectSize almostEmpty tries space with
    | none => none
    | some (addr, space) =>
        let space := initPtr runtime ptr addr space
        match optionalId with
        | none =>
            match allocateRemoteObject runtime schedule objectSize space with
            | none => none
            | some (remote, space) =>
                some (updateRefCnt runtime addr (· - 1)
                  (newObject runtime addr dsId itemSize 8 (bytesOf remote) space))
        | some (idLen, id) =>
            some (updateRefCnt runtime addr (· - 1)
              (newObject runtime addr dsId itemSize idLen id space))
  else none

variable {runtime schedule} {space next : Space Meta} {ptr : Slot} {dsId : BitVec 8}
  {itemSize objectSize : BitVec 16} {optionalId : Option (BitVec 8 × (ℕ → BitVec 8))} {addr : ℕ}

theorem exists_allocateLocalObject_iff (hcores : space.cache.HasCores) (almostEmpty : Bool) :
    (∃ tries, allocateLocalObject runtime schedule objectSize almostEmpty tries space =
        some (addr, next)) ↔
      allocateLocalObjectNb runtime schedule objectSize space = some (some addr, next) := by
  constructor
  · rintro ⟨tries, hallocate⟩
    rw [allocateLocalObject] at hallocate
    split at hallocate
    · cases hallocate
    · rename_i found cache hcache
      cases hallocate
      have hnb := (hcores.exists_retryAllocate_iff almostEmpty).mp ⟨tries, hcache⟩
      rw [allocateLocalObjectNb, hnb]
  · intro hallocate
    rw [allocateLocalObjectNb] at hallocate
    split at hallocate
    · cases hallocate
    · cases hallocate
    · rename_i found cache hcache
      cases hallocate
      obtain ⟨tries, hreturns⟩ := (hcores.exists_retryAllocate_iff almostEmpty).mpr hcache
      refine ⟨tries, ?_⟩
      rw [allocateLocalObject, RegionManager.allocateLocalObject, hreturns]

/-- The two functions differ in the allocation of local space only. -/
theorem exists_allocateGenericUniquePtr_iff (hcores : space.cache.HasCores)
    (almostEmpty : Bool) :
    (∃ tries, allocateGenericUniquePtr runtime schedule ptr dsId itemSize optionalId
        almostEmpty tries space = some next) ↔
      allocateGenericUniquePtrNb runtime schedule ptr dsId itemSize optionalId space =
        some (true, next) := by
  constructor
  · rintro ⟨tries, hreturns⟩
    rw [allocateGenericUniquePtr, Option.ite_none_right_eq_some] at hreturns
    obtain ⟨hsize, hreturns⟩ := hreturns
    rw [allocateGenericUniquePtrNb, if_pos hsize]
    dsimp only at hreturns ⊢
    generalize hallocate : allocateLocalObject runtime schedule _ _ _ space = outcome at hreturns
    rcases outcome with _ | ⟨addr, started⟩
    · cases hreturns
    rw [(exists_allocateLocalObject_iff hcores almostEmpty).mp ⟨tries, hallocate⟩]
    cases optionalId with
    | none =>
        dsimp only at hreturns ⊢
        generalize allocateRemoteObject runtime schedule _ _ = outcome at hreturns ⊢
        rcases outcome with _ | ⟨remote, filled⟩ <;> cases hreturns
        rfl
    | some given =>
        cases hreturns
        rfl
  · intro hrun
    rw [allocateGenericUniquePtrNb, Option.ite_none_right_eq_some] at hrun
    obtain ⟨hsize, hrun⟩ := hrun
    dsimp only at hrun
    generalize hallocate : allocateLocalObjectNb runtime schedule _ space = outcome at hrun
    rcases outcome with _ | ⟨_ | addr, started⟩
    · cases hrun
    · cases hrun
    obtain ⟨tries, hreturns⟩ := (exists_allocateLocalObject_iff hcores almostEmpty).mpr hallocate
    refine ⟨tries, ?_⟩
    rw [allocateGenericUniquePtr, if_pos hsize]
    dsimp only
    rw [hreturns]
    cases optionalId with
    | none =>
        dsimp only at hrun ⊢
        generalize allocateRemoteObject runtime schedule _ _ = outcome at hrun ⊢
        rcases outcome with _ | ⟨remote, filled⟩ <;> cases hrun
        rfl
    | some given =>
        cases hrun
        rfl

/-- By itself a blocking allocation returns exactly where the non-blocking one
succeeds, in the same state, and then with the object built. -/
theorem blocking_builds (hdocumented : Documented runtime)
    (hvalid : Valid runtime schedule ptr space (.allocate dsId itemSize optionalId))
    (almostEmpty : Bool) :
    ((∃ tries, allocateGenericUniquePtr runtime schedule ptr dsId itemSize optionalId
          almostEmpty tries space = some next) ↔
        allocateGenericUniquePtrNb runtime schedule ptr dsId itemSize optionalId space =
          some (true, next)) ∧
      ∀ tries, allocateGenericUniquePtr runtime schedule ptr dsId itemSize optionalId
          almostEmpty tries space = some next →
        ∃ addr, Built runtime schedule ptr (.allocate dsId itemSize optionalId) space next
          addr := by
  constructor
  · exact exists_allocateGenericUniquePtr_iff hvalid.cores almostEmpty
  · intro tries hreturns
    have hrun := (exists_allocateGenericUniquePtr_iff hvalid.cores almostEmpty).mp
      ⟨tries, hreturns⟩
    exact built_allocate hdocumented hvalid hrun

/-- A vanilla object of 100 bytes. -/
theorem valid_vanillaItem :
    Valid sixteenByteRuntime ⟨0, 0, 8⟩ 6 oneVanillaObject (.allocate 0 100 none) where
  cores := ⟨by decide, by decide⟩
  ptr_pos := by decide
  ptr_lt := by decide
  addressable address hfree := (bounds_of_mem_freeBytes hfree).2.trans (by decide)
  fits := by decide +kernel
  old _ hold := absurd hold (Option.not_mem_none _)

theorem blocking_builds_vanillaItem :
    ∃ next, (∃ tries, allocateGenericUniquePtr sixteenByteRuntime ⟨0, 0, 8⟩ 6 0 100 none
        true tries oneVanillaObject = some next) ∧
      ∃ addr, Built sixteenByteRuntime ⟨0, 0, 8⟩ 6 (.allocate 0 100 none) oneVanillaObject
        next addr := by
  have hreturns : (allocateGenericUniquePtr sixteenByteRuntime ⟨0, 0, 8⟩ 6 0 100 none true 3
      oneVanillaObject).isSome = true := rfl
  obtain ⟨next, hnext⟩ := Option.isSome_iff_exists.mp hreturns
  exact ⟨next, ⟨3, hnext⟩, (blocking_builds documented_sixteenByteRuntime valid_vanillaItem
    true).2 3 hnext⟩

end NonBlocking

end DynamicSwap
