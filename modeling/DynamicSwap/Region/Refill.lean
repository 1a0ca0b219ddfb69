import DynamicSwap.Region.Room

/-!
# The effect of a refill

`try_refill_core_local_free_region` on a core's own slot, as one equation for
each outcome.  The slot that it retires is the slot that it refills, and `nt`
lives in the header behind `buf_ptr_`: with an empty free list, `set_nt` goes to
the header that the slot, invalid by then, still points to, and a region without
a buffer has no header for it.
-/

namespace DynamicSwap.RegionManager

variable (ops : RegionOps)

/-- Whether a region retires to `nt_used_regions_`. -/
def goesNt (manager : RegionManager) (region : Region) : Bool :=
  region.isLocal && manager.isNt ops region

/-- Each used queue takes another region. -/
structure HasRoom (manager : RegionManager) : Prop where
  usedRegions : manager.usedRegions.length < manager.capacity
  ntUsedRegions : manager.ntUsedRegions.length < manager.capacity

/-- The slot's region, if it is valid. -/
def fullRegion (core : Fin kNumCPUs) (nt : Bool) (manager : RegionManager) : List Region :=
  [manager.coreLocalFreeRegion core nt].filter fun region => !region.isInvalid

/-- The used queue for the slot's region takes it. -/
def RoomFor (core : Fin kNumCPUs) (nt : Bool) (manager : RegionManager) : Prop :=
  ∀ region ∈ manager.fullRegion core nt,
    (if manager.goesNt ops region then manager.ntUsedRegions
      else manager.usedRegions).length < manager.capacity

/-- The slot's region at the back of the used queue for its kind. -/
def retire (core : Fin kNumCPUs) (nt : Bool) (manager : RegionManager) : RegionManager :=
  { manager with
    usedRegions := manager.usedRegions ++
      (manager.fullRegion core nt).filter fun region => !manager.goesNt ops region
    ntUsedRegions := manager.ntUsedRegions ++
      (manager.fullRegion core nt).filter (manager.goesNt ops) }

/-- What `push_back` leaves in the slot. -/
def emptiedSlot (core : Fin kNumCPUs) (nt : Bool) (manager : RegionManager) : Region :=
  let full := manager.coreLocalFreeRegion core nt
  if full.isInvalid then full else ops.moved full

/-- `set_nt` on a slot that is refilled for non-temporal objects. -/
def flag (nt : Bool) (region : Region) (manager : RegionManager) : RegionManager :=
  if nt then manager.setNt ops region else manager

/-- No header is written: whatever the headers hold, they hold it afterwards. -/
def WritesNoHeader (core : Fin kNumCPUs) (nt : Bool) (manager : RegionManager) : Prop :=
  ∀ headers : BitVec 32 → RegionHeader,
    ∀ result ∈ { manager with headers := headers }.tryRefillCoreLocalFreeRegion ops core nt,
      result.2.headers = headers

/-- The outcome of a refill: where the full region is, what the slot holds, and
that nothing else has changed. -/
structure Exact (core : Fin kNumCPUs) (nt : Bool) (manager : RegionManager)
    (success : Bool) (next : RegionManager) : Prop where
  usedRegions : next.usedRegions = manager.usedRegions ++
    (manager.fullRegion core nt).filter fun region => !manager.goesNt ops region
  ntUsedRegions : next.ntUsedRegions = manager.ntUsedRegions ++
    (manager.fullRegion core nt).filter (manager.goesNt ops)
  success_iff : success = true ↔ manager.freeRegions ≠ []
  refilled : ∀ region freeRegions, manager.freeRegions = region :: freeRegions →
    next.coreLocalFreeRegion core nt = region ∧ next.freeRegions = freeRegions ∧
      (nt = true → region.isLocal = true ∧ next.isNt ops region = true) ∧
        ∀ idx, nt = true ∧ idx = ops.headerIdx region ∨
          next.headers idx = manager.headers idx
  failed : success = false →
    (next.coreLocalFreeRegion core nt).isInvalid = true ∧ manager.WritesNoHeader ops core nt
  refCnt : ∀ idx, (next.headers idx).refCnt = (manager.headers idx).refCnt
  others : ∀ otherCore otherNt, ¬ (otherCore = core ∧ otherNt = nt) →
    next.coreLocalFreeRegion otherCore otherNt =
      manager.coreLocalFreeRegion otherCore otherNt

variable {ops} {manager next : RegionManager} {core : Fin kNumCPUs} {nt success : Bool}

/-! ## The two outcomes -/

theorem pushBack_of_lt {capacity : ℕ} {queue : List Region} (region : Region)
    (hroom : queue.length < capacity) :
    pushBack capacity queue region = some (queue ++ [region]) :=
  if_pos hroom

theorem HasCores.set_self (hcores : manager.HasCores) (core : Fin kNumCPUs) (nt : Bool) :
    manager.setCoreLocalFreeRegion core nt (manager.coreLocalFreeRegion core nt) =
      manager := by
  have hlt := core.isLt
  cases nt with
  | true =>
      have hcore : (core : ℕ) < manager.coreLocalFreeNtRegions.length := by
        rwa [hcores.ntRegions]
      rw [RegionManager.setCoreLocalFreeRegion, coreLocalFreeRegion, if_pos rfl, if_pos rfl,
        List.getD_eq_getElem _ _ hcore, List.set_getElem_self]
  | false =>
      have hcore : (core : ℕ) < manager.coreLocalFreeRegions.length := by
        rwa [hcores.regions]
      rw [RegionManager.setCoreLocalFreeRegion, coreLocalFreeRegion,
        if_neg Bool.false_ne_true, if_neg Bool.false_ne_true,
        List.getD_eq_getElem _ _ hcore, List.set_getElem_self]

theorem HasRoom.roomFor (hroom : manager.HasRoom) (ops : RegionOps) (core : Fin kNumCPUs)
    (nt : Bool) : manager.RoomFor ops core nt := by
  intro region _
  split
  · exact hroom.ntUsedRegions
  · exact hroom.usedRegions

/-- The first half retires the slot's region. -/
theorem HasCores.pushFullRegion_eq (hcores : manager.HasCores)
    (hroom : manager.RoomFor ops core nt) :
    manager.pushFullRegion ops core nt =
      some ((manager.retire ops core nt).setCoreLocalFreeRegion core nt
        (manager.emptiedSlot ops core nt)) := by
  by_cases hinvalid : (manager.coreLocalFreeRegion core nt).isInvalid = true
  · have hretire : manager.retire ops core nt = manager := by
      simp [retire, fullRegion, hinvalid]
    rw [hretire, emptiedSlot, if_pos hinvalid, hcores.set_self,
      RegionManager.pushFullRegion, if_pos hinvalid]
  · have hfull : manager.fullRegion core nt = [manager.coreLocalFreeRegion core nt] := by
      simp [fullRegion, hinvalid]
    have hqueue := hroom _ (hfull ▸ List.mem_singleton_self _)
    rw [emptiedSlot, if_neg hinvalid, RegionManager.pushFullRegion, if_neg hinvalid]
    by_cases hnt : manager.goesNt ops (manager.coreLocalFreeRegion core nt) = true
    · rw [if_pos hnt] at hqueue
      rw [retire, hfull, List.filter_singleton, List.filter_singleton, hnt]
      rw [goesNt] at hnt
      rw [if_pos hnt, pushBack_of_lt _ hqueue]
      simp
    · rw [if_neg hnt] at hqueue
      rw [Bool.not_eq_true] at hnt
      rw [retire, hfull, List.filter_singleton, List.filter_singleton, hnt]
      rw [goesNt] at hnt
      rw [if_neg (by rw [hnt]; exact Bool.false_ne_true), pushBack_of_lt _ hqueue]
      simp

theorem isInvalid_emptiedSlot (manager : RegionManager) (core : Fin kNumCPUs) (nt : Bool) :
    (manager.emptiedSlot ops core nt).isInvalid = true := by
  rw [emptiedSlot]
  split
  · assumption
  · exact ops.isInvalid_moved _

theorem HasCores.retire (hcores : manager.HasCores) (ops : RegionOps) (core : Fin kNumCPUs)
    (nt : Bool) : (manager.retire ops core nt).HasCores :=
  ⟨hcores.regions, hcores.ntRegions⟩

/-- The second half takes the front of the free list. -/
theorem HasCores.popFreeRegion_cons (hcores : manager.HasCores)
    (hinvalid : (manager.coreLocalFreeRegion core nt).isInvalid = true)
    {region : Region} {freeRegions : List Region}
    (hfree : manager.freeRegions = region :: freeRegions) :
    manager.popFreeRegion ops core nt =
      (true, flag ops nt region
        ({ manager with freeRegions := freeRegions }.setCoreLocalFreeRegion
          core nt region)) := by
  have hcoresPopped : { manager with freeRegions := freeRegions }.HasCores :=
    ⟨hcores.regions, hcores.ntRegions⟩
  rw [RegionManager.popFreeRegion, if_pos hinvalid, hfree]
  dsimp only
  rw [hcoresPopped.coreLocalFreeRegion_set region, flag]
  split <;> rfl

/-- The second half with an empty free list calls `set_nt` all the same. -/
theorem popFreeRegion_nil
    (hinvalid : (manager.coreLocalFreeRegion core nt).isInvalid = true)
    (hfree : manager.freeRegions = []) :
    manager.popFreeRegion ops core nt =
      (false, flag ops nt (manager.coreLocalFreeRegion core nt) manager) := by
  rw [RegionManager.popFreeRegion, if_pos hinvalid, hfree]
  dsimp only
  rw [flag]
  split <;> rfl

/-- With a free region the slot takes it. -/
theorem HasCores.tryRefill_cons (hcores : manager.HasCores)
    (hroom : manager.RoomFor ops core nt) {region : Region} {freeRegions : List Region}
    (hfree : manager.freeRegions = region :: freeRegions) :
    manager.tryRefillCoreLocalFreeRegion ops core nt =
      some (true, flag ops nt region
        ({ manager.retire ops core nt with
          freeRegions := freeRegions }.setCoreLocalFreeRegion core nt region)) := by
  have hcoresRetired := hcores.retire ops core nt
  have hfreeRetired : ((manager.retire ops core nt).setCoreLocalFreeRegion core nt
      (manager.emptiedSlot ops core nt)).freeRegions = region :: freeRegions :=
    (freeRegions_setCoreLocalFreeRegion _).trans hfree
  rw [tryRefillCoreLocalFreeRegion, hcores.pushFullRegion_eq hroom]
  dsimp only
  rw [(hcoresRetired.setCoreLocalFreeRegion _).popFreeRegion_cons
    (hcoresRetired.coreLocalFreeRegion_set _ ▸ isInvalid_emptiedSlot manager core nt)
    hfreeRetired]
  cases nt <;> simp [RegionManager.setCoreLocalFreeRegion]

/-- With an empty free list the slot is left invalid. -/
theorem HasCores.tryRefill_nil (hcores : manager.HasCores)
    (hroom : manager.RoomFor ops core nt) (hfree : manager.freeRegions = []) :
    manager.tryRefillCoreLocalFreeRegion ops core nt =
      some (false, flag ops nt (manager.emptiedSlot ops core nt)
        ((manager.retire ops core nt).setCoreLocalFreeRegion core nt
          (manager.emptiedSlot ops core nt))) := by
  have hslot : ((manager.retire ops core nt).setCoreLocalFreeRegion core nt
      (manager.emptiedSlot ops core nt)).coreLocalFreeRegion core nt =
      manager.emptiedSlot ops core nt :=
    (hcores.retire ops core nt).coreLocalFreeRegion_set _
  have hinvalid : (((manager.retire ops core nt).setCoreLocalFreeRegion core nt
      (manager.emptiedSlot ops core nt)).coreLocalFreeRegion core nt).isInvalid = true :=
    hslot.symm ▸ isInvalid_emptiedSlot manager core nt
  rw [tryRefillCoreLocalFreeRegion, hcores.pushFullRegion_eq hroom]
  dsimp only
  rw [popFreeRegion_nil hinvalid ((freeRegions_setCoreLocalFreeRegion _).trans hfree), hslot]

/-! ## What `set_nt` leaves alone -/

section Flag

variable (ops) (manager) (nt) (region : Region)

@[simp]
theorem flag_false : flag ops false region manager = manager := rfl

@[simp]
theorem freeRegions_flag : (flag ops nt region manager).freeRegions = manager.freeRegions := by
  rw [flag]
  split <;> rfl

@[simp]
theorem usedRegions_flag : (flag ops nt region manager).usedRegions = manager.usedRegions := by
  rw [flag]
  split <;> rfl

@[simp]
theorem ntUsedRegions_flag :
    (flag ops nt region manager).ntUsedRegions = manager.ntUsedRegions := by
  rw [flag]
  split <;> rfl

@[simp]
theorem coreLocalFreeRegion_flag :
    (flag ops nt region manager).coreLocalFreeRegion = manager.coreLocalFreeRegion := by
  rw [flag]
  split <;> rfl

theorem headers_flag (idx : BitVec 32) :
    nt = true ∧ idx = ops.headerIdx region ∨
      (flag ops nt region manager).headers idx = manager.headers idx := by
  by_cases hidx : idx = ops.headerIdx region
  · cases nt with
    | true => exact .inl ⟨rfl, hidx⟩
    | false => exact .inr rfl
  · right
    rw [flag]
    split
    · exact Function.update_of_ne hidx _ _
    · rfl

theorem isNt_flag (hnt : nt = true) : (flag ops nt region manager).isNt ops region = true := by
  rw [flag, if_pos hnt, isNt, setNt]
  simp

@[simp]
theorem refCnt_flag (idx : BitVec 32) :
    ((flag ops nt region manager).headers idx).refCnt = (manager.headers idx).refCnt := by
  rw [flag]
  split
  · rw [setNt]
    dsimp only
    by_cases hidx : idx = ops.headerIdx region
    · rw [hidx, Function.update_self]
    · rw [Function.update_of_ne hidx]
  · rfl

end Flag

@[simp]
theorem usedRegions_setCoreLocalFreeRegion (region : Region) :
    (manager.setCoreLocalFreeRegion core nt region).usedRegions = manager.usedRegions := by
  cases nt <;> rfl

@[simp]
theorem ntUsedRegions_setCoreLocalFreeRegion (region : Region) :
    (manager.setCoreLocalFreeRegion core nt region).ntUsedRegions =
      manager.ntUsedRegions := by
  cases nt <;> rfl

@[simp]
theorem headers_setCoreLocalFreeRegion (region : Region) :
    (manager.setCoreLocalFreeRegion core nt region).headers = manager.headers := by
  cases nt <;> rfl

/-! ## Exactness -/

/-- Taking a free region is exact. -/
theorem HasCores.exact_cons (hcores : manager.HasCores) {region : Region}
    {freeRegions : List Region} (hfree : manager.freeRegions = region :: freeRegions)
    (hlocal : nt = true → region.isLocal = true) :
    Exact ops core nt manager true (flag ops nt region
      ({ manager.retire ops core nt with
        freeRegions := freeRegions }.setCoreLocalFreeRegion core nt region)) := by
  have hcoresPopped :
      { manager.retire ops core nt with freeRegions := freeRegions }.HasCores :=
    ⟨hcores.regions, hcores.ntRegions⟩
  constructor
  case usedRegions =>
    rw [usedRegions_flag, usedRegions_setCoreLocalFreeRegion, RegionManager.retire]
  case ntUsedRegions =>
    rw [ntUsedRegions_flag, ntUsedRegions_setCoreLocalFreeRegion, RegionManager.retire]
  case success_iff => simp [hfree]
  case refilled =>
    intro front rest hfront
    obtain ⟨rfl, rfl⟩ := List.cons.inj (hfree.symm.trans hfront)
    refine ⟨?_, ?_, fun hnt => ⟨hlocal hnt, isNt_flag ops _ nt region hnt⟩, ?_⟩
    · rw [coreLocalFreeRegion_flag, hcoresPopped.coreLocalFreeRegion_set]
    · rw [freeRegions_flag, freeRegions_setCoreLocalFreeRegion]
    · intro idx
      refine (headers_flag ops _ nt region idx).imp_right fun hsame => hsame.trans ?_
      rw [headers_setCoreLocalFreeRegion, RegionManager.retire]
  case failed => exact fun hfailed => Bool.noConfusion hfailed
  case refCnt =>
    intro idx
    rw [refCnt_flag, headers_setCoreLocalFreeRegion, RegionManager.retire]
  case others =>
    intro otherCore otherNt hother
    rw [coreLocalFreeRegion_flag, coreLocalFreeRegion_set_of_ne _ hother]
    rfl

/-- Unless `nt` is asked for, a refill without a free region writes no header. -/
theorem HasCores.writesNoHeader_nil (hcores : manager.HasCores) (hroom : manager.HasRoom)
    (hfree : manager.freeRegions = []) : manager.WritesNoHeader ops core false := by
  intro headers result hresult
  have hcoresAny : { manager with headers := headers }.HasCores :=
    ⟨hcores.regions, hcores.ntRegions⟩
  have hroomAny : { manager with headers := headers }.HasRoom :=
    ⟨hroom.usedRegions, hroom.ntUsedRegions⟩
  rw [hcoresAny.tryRefill_nil (hroomAny.roomFor ops core false) hfree] at hresult
  cases hresult
  rw [flag_false, headers_setCoreLocalFreeRegion]
  rfl

theorem HasCores.exact_nil (hcores : manager.HasCores) (hroom : manager.HasRoom)
    (hfree : manager.freeRegions = []) :
    Exact ops core false manager false
      ((manager.retire ops core false).setCoreLocalFreeRegion core false
        (manager.emptiedSlot ops core false)) := by
  have hslot : ((manager.retire ops core false).setCoreLocalFreeRegion core false
      (manager.emptiedSlot ops core false)).coreLocalFreeRegion core false =
      manager.emptiedSlot ops core false :=
    (hcores.retire ops core false).coreLocalFreeRegion_set _
  constructor
  case usedRegions => rw [usedRegions_setCoreLocalFreeRegion, RegionManager.retire]
  case ntUsedRegions => rw [ntUsedRegions_setCoreLocalFreeRegion, RegionManager.retire]
  case success_iff => simp [hfree]
  case refilled =>
    intro region freeRegions hcons
    exact nomatch hfree.symm.trans hcons
  case failed =>
    intro _
    exact ⟨hslot.symm ▸ isInvalid_emptiedSlot manager core false,
      hcores.writesNoHeader_nil hroom hfree⟩
  case refCnt =>
    intro idx
    rw [headers_setCoreLocalFreeRegion, RegionManager.retire]
  case others =>
    intro otherCore otherNt hother
    rw [coreLocalFreeRegion_set_of_ne _ hother]
    rfl

/-- With `nt` and no free region the header behind the emptied slot is
written. -/
theorem HasCores.not_writesNoHeader (hcores : manager.HasCores) (hroom : manager.HasRoom)
    (hfree : manager.freeRegions = []) : ¬ manager.WritesNoHeader ops core true := by
  intro hwrites
  have hcoresAny : { manager with headers := fun _ => {} }.HasCores :=
    ⟨hcores.regions, hcores.ntRegions⟩
  have hroomAny : { manager with headers := fun _ => {} }.HasRoom :=
    ⟨hroom.usedRegions, hroom.ntUsedRegions⟩
  have hheaders := hwrites (fun _ => {}) _
    (hcoresAny.tryRefill_nil (hroomAny.roomFor ops core true) hfree)
  have hnt := isNt_flag ops (({ manager with headers := fun _ => {} }.retire ops core true
    ).setCoreLocalFreeRegion core true
      ({ manager with headers := fun _ => {} }.emptiedSlot ops core true)) true
    ({ manager with headers := fun _ => {} }.emptiedSlot ops core true) rfl
  rw [isNt, hheaders] at hnt
  exact Bool.false_ne_true hnt

/-- A refill with `nt` is exact only if it takes a region with a buffer. -/
theorem HasCores.isLocal_of_exact (hcores : manager.HasCores) (hroom : manager.HasRoom)
    (hexact : Exact ops core true manager success next) :
    ∃ region ∈ manager.freeRegions.head?, region.isLocal = true := by
  cases hfree : manager.freeRegions with
  | nil =>
      have hsuccess : success = false := by
        rw [← Bool.not_eq_true, hexact.success_iff]
        exact not_not_intro hfree
      exact absurd (hexact.failed hsuccess).2 (hcores.not_writesNoHeader hroom hfree)
  | cons region freeRegions =>
      obtain ⟨-, -, hlocal, -⟩ := hexact.refilled region freeRegions hfree
      exact ⟨region, rfl, (hlocal rfl).1⟩

/-- A refill is exact exactly when a flag that is asked for has a header to go to:
unless `nt` is false, the front of the free list is there and has a buffer. -/
theorem exact_iff (hcores : manager.HasCores) (hroom : manager.HasRoom) :
    (∃ success next, manager.tryRefillCoreLocalFreeRegion ops core nt =
        some (success, next) ∧ Exact ops core nt manager success next) ↔
      (nt = true → ∃ region ∈ manager.freeRegions.head?, region.isLocal = true) := by
  constructor
  · rintro ⟨success, next, -, hexact⟩ rfl
    exact hcores.isLocal_of_exact hroom hexact
  · intro hcondition
    cases hfree : manager.freeRegions with
    | cons region freeRegions =>
        refine ⟨true, _, hcores.tryRefill_cons (hroom.roomFor ops core nt) hfree,
          hcores.exact_cons hfree fun hnt => ?_⟩
        obtain ⟨front, hfront, hlocal⟩ := hcondition hnt
        rw [hfree] at hfront
        cases hfront
        exact hlocal
    | nil =>
        have hnt : nt = false := by
          rw [← Bool.not_eq_true]
          intro hnt
          obtain ⟨front, hfront, -⟩ := hcondition hnt
          rw [hfree] at hfront
          cases hfront
        subst hnt
        refine ⟨false, _, hcores.tryRefill_nil (hroom.roomFor ops core false) hfree, ?_⟩
        rw [flag_false]
        exact hcores.exact_nil hroom hfree

/-- Members of `Region` for which a move leaves `buf_ptr_` behind and the header
is found through it. -/
def stale : RegionOps where
  allocateObject _ _ := none
  reset region := region
  resetHeader header := header
  moved region := { region with regionIdx := Region.kInvalidIdx }
  headerIdx region :=
    if region.isInvalid then BitVec.ofNat 32 (region.bufPtr.getD 0 / Region.kSize)
    else region.regionIdx
  allocateObject_invalid _ _ _ := rfl
  identity_allocateObject _ _ _ _ hallocate := nomatch hallocate
  allocateObject_fits _ _ _ _ _ hallocate := nomatch hallocate
  identity_reset _ := rfl
  isInvalid_moved _ := rfl
  headerIdx_valid region hvalid := by simp [hvalid]
  refCnt_resetHeader _ hzero := hzero

/-- Region 1 was in core 0's `nt` slot and is now in core 1's other slot. -/
def reused : RegionManager where
  coreLocalFreeRegions :=
    (List.replicate kNumCPUs Region.invalid).set 1 ⟨1, some 1024, Region.kHeaderSize⟩
  coreLocalFreeNtRegions :=
    (List.replicate kNumCPUs Region.invalid).set 0
      ⟨Region.kInvalidIdx, some 1024, Region.kHeaderSize⟩
  freeRegions := []
  usedRegions := []
  ntUsedRegions := []
  capacity := 5
  headers _ := {}

/-- Core 0's failing call turns core 1's region into a non-temporal one. -/
theorem not_exact_reused :
    (∃ next, reused.tryRefillCoreLocalFreeRegion stale 0 true = some (false, next) ∧
      reused.isNt stale (reused.coreLocalFreeRegion 1 false) = false ∧
        next.isNt stale (next.coreLocalFreeRegion 1 false) = true) ∧
      ¬ ∃ success next, reused.tryRefillCoreLocalFreeRegion stale 0 true =
        some (success, next) ∧ Exact stale 0 true reused success next := by
  have hcores : reused.HasCores := ⟨by decide, by decide⟩
  have hroom : reused.HasRoom := ⟨by decide, by decide⟩
  constructor
  · refine ⟨_, hcores.tryRefill_nil (hroom.roomFor stale 0 true) rfl, rfl, ?_⟩
    decide +kernel
  · rintro ⟨success, next, -, hexact⟩
    obtain ⟨region, hregion, -⟩ := hcores.isLocal_of_exact hroom hexact
    cases hregion

/-- Region 2 is free. -/
def restocked : RegionManager :=
  { reused with freeRegions := [⟨2, some 2048, Region.kHeaderSize⟩] }

/-- With region 2 free the same call takes it. -/
theorem exact_reused :
    ∃ success next,
      restocked.tryRefillCoreLocalFreeRegion stale 0 true = some (success, next) ∧
        Exact stale 0 true restocked success next :=
  (exact_iff ⟨by decide, by decide⟩ ⟨by decide, by decide⟩).mpr fun _ => ⟨_, rfl, rfl⟩

end DynamicSwap.RegionManager
