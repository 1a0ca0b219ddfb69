import DynamicSwap.Core.ObjectSize
import DynamicSwap.Pager.Headroom

/-!
# What the budget leaves out

An array registers the item size of its slots, while the allocator reserves an
object: header, item and id.  A scan therefore stores more free cache than there
is as soon as it finds an object of ordinary size present.
-/

namespace DynamicSwap.Overhead

open Pager (isPresent scanTotal totalSize)

variable {Meta : Type} {count numGcThreads : ℕ}
variable (limits : ObjectLimits) (pointer : FarMemPtrMeta Meta)

/-- Bytes that `allocate_generic_unique_ptr` reserves for an item that an array
registers, and `swap_in` again from the recorded lengths. -/
def reservedSize (ref : ObjRef) : ℕ :=
  match ObjectSize.genericArray limits (BitVec.ofNat 32 ref.size) with
  | none => 0
  | some allocation => allocation.objectSize.toNat

/-- Every ref was registered with an item size that the constructor of
`GenericArray` accepts. -/
def Accepted (registry : Registry) : Prop :=
  ∀ ref ∈ registry.objectRefs, ref.size < 2 ^ 32 ∧
    (ObjectSize.genericArray limits (BitVec.ofNat 32 ref.size)).isSome = true

section Sizes

variable (state : Pager.State Meta count numGcThreads)

/-- Registered objects in local memory. -/
def presentRefs : List ObjRef :=
  state.registry.objectRefs.filter fun ref => isPresent pointer state.far ref.ptr

/-- Cache bytes that these objects occupy. -/
def occupied : ℕ :=
  ((presentRefs pointer state).map (reservedSize limits)).sum

/-- Bytes of their headers and ids. -/
def overhead : ℕ :=
  (presentRefs pointer state).length *
    (limits.kHeaderSize + limits.kVanillaPtrObjectIDSize.toNat)

/-- What the narrowing to `uint16_t` dropped of their item sizes. -/
def dropped : ℕ :=
  ((presentRefs pointer state).map fun ref => ref.size / 2 ^ 16 * 2 ^ 16).sum

end Sizes

variable {limits} {pointer} {pagerThread : Fin count}
variable {state next : Pager.State Meta count numGcThreads}

theorem reservedSize_eq {ref : ObjRef} (hwidth : ref.size < 2 ^ 32)
    (haccepted : (ObjectSize.genericArray limits
      (BitVec.ofNat 32 ref.size)).isSome = true) :
    reservedSize limits ref + ref.size / 2 ^ 16 * 2 ^ 16 =
      ref.size + (limits.kHeaderSize + limits.kVanillaPtrObjectIDSize.toNat) := by
  obtain ⟨allocation, hallocation⟩ := Option.isSome_iff_exists.mp haccepted
  have hlow : ((BitVec.ofNat 32 ref.size).setWidth 16).toNat = ref.size % 2 ^ 16 := by
    rw [BitVec.toNat_setWidth, BitVec.toNat_ofNat, Nat.mod_eq_of_lt hwidth]
  have hreserved : reservedSize limits ref = limits.kHeaderSize + ref.size % 2 ^ 16 +
      limits.kVanillaPtrObjectIDSize.toNat := by
    rw [reservedSize, hallocation]
    simp only [ObjectSize.genericArray, ObjectSize.allocateGenericUniquePtr,
      Option.map_eq_some_iff, Option.ite_none_right_eq_some, Option.some.injEq]
      at hallocation
    obtain ⟨_, ⟨hlimit, rfl⟩, rfl⟩ := hallocation
    rw [← hlow]
    exact ObjectSize.toNat_allocateLocalObject hlimit
  omega

/-- The registered sizes fall short of the occupied bytes by the overhead, up to
what was dropped. -/
theorem occupied_add_dropped (pointer : FarMemPtrMeta Meta)
    (haccepted : Accepted limits state.registry) :
    occupied limits pointer state + dropped pointer state =
      totalSize (fun ref => isPresent pointer state.far ref.ptr)
        state.registry.objectRefs + overhead limits pointer state := by
  have hsum : ∀ refs : List ObjRef, (∀ ref ∈ refs, ref ∈ state.registry.objectRefs) →
      (refs.map (reservedSize limits)).sum +
          (refs.map fun ref => ref.size / 2 ^ 16 * 2 ^ 16).sum =
        (refs.map ObjRef.size).sum + refs.length *
          (limits.kHeaderSize + limits.kVanillaPtrObjectIDSize.toNat) := by
    intro refs hrefs
    induction refs with
    | nil => simp
    | cons ref refs ih =>
        have hrest := ih fun other hother => hrefs other (List.mem_cons_of_mem _ hother)
        have href := haccepted ref (hrefs ref List.mem_cons_self)
        have hone := reservedSize_eq href.1 href.2
        simp only [List.map_cons, List.sum_cons, List.length_cons, Nat.add_mul, one_mul]
        omega
  exact hsum _ fun ref href => (List.mem_filter.mp href).1

/-- With presence fixed during the scan, what it stores is free cache exactly
when the headers and ids of the present objects are made up for by what the
narrowing dropped of their sizes. -/
theorem availableMem_le_iff
    (hreachable : (Pager.machine pointer pagerThread).Reachable state)
    (haccepted : Accepted limits state.registry) {total : ℕ}
    {visits : List (ObjRef × Bool)} (hmemory : state.memory = .store total visits)
    (hfixed : ∀ visit ∈ visits, visit.2 = isPresent pointer state.far visit.1.ptr)
    (htotal : scanTotal visits ≤ state.cacheSize)
    (hstep : Pager.step pointer pagerThread state .memory = some next) :
    next.availableMem + occupied limits pointer state ≤ state.cacheSize ↔
      overhead limits pointer state ≤ dropped pointer state := by
  have hinv := Pager.inv_of_reachable hreachable
  obtain ⟨hvisits, hstored⟩ := hinv.stored hmemory hstep
  rw [Pager.wrappedDifference_of_le hinv.cacheSize htotal] at hstored
  have hpresent : scanTotal visits =
      totalSize (fun ref => isPresent pointer state.far ref.ptr)
        state.registry.objectRefs := by
    rw [← hvisits]
    exact Pager.scanTotal_eq hfixed
  have hbalance := occupied_add_dropped pointer haccepted
  omega

/-- Sizes below `2 ^ 16`: the stored value is free cache only when no registered
object is present. -/
theorem overhead_le_dropped_iff
    (hsizes : ∀ ref ∈ state.registry.objectRefs, ref.size < 2 ^ 16) :
    overhead limits pointer state ≤ dropped pointer state ↔
      presentRefs pointer state = [] := by
  have hdropped : dropped pointer state = 0 := by
    rw [dropped, List.sum_eq_zero_iff]
    intro size hsize
    obtain ⟨ref, href, rfl⟩ := List.mem_map.mp hsize
    have hlt := hsizes ref (List.mem_filter.mp href).1
    rw [Nat.div_eq_of_lt hlt, zero_mul]
  have hpos := limits.kHeaderSize_pos
  rw [hdropped, Nat.le_zero, overhead, Nat.mul_eq_zero, List.length_eq_zero_iff]
  exact or_iff_left (by omega)

/-! ## The small cache -/

theorem accepted_smallCache :
    Accepted ObjectSize.sixteenByteHeader Pager.smallCache.registry := by
  intro ref href
  fin_cases href <;> decide

/-- A `swap_in` at 8, then a scan that finds this object. -/
def presentScanRun : List (Pager.Action 2 1 ℕ) :=
  Protocol.mutatorRun.map .far ++ List.replicate 5 .memory

theorem run_presentScanRun :
    ∃ state next,
      (Pager.machine (FarMemPtrMeta.pointerHpp 16) 1).run Pager.smallCache
        presentScanRun = some state ∧
      state.registry = Pager.smallCache.registry ∧
      state.memory = .store 950 [(⟨8, 950⟩, true), (⟨16, 950⟩, false)] ∧
      isPresent (FarMemPtrMeta.pointerHpp 16) state.far 8 = true ∧
      isPresent (FarMemPtrMeta.pointerHpp 16) state.far 16 = false ∧
      state.cacheSize = 1000 ∧
      occupied ObjectSize.sixteenByteHeader (FarMemPtrMeta.pointerHpp 16) state =
        974 ∧
      Pager.step (FarMemPtrMeta.pointerHpp 16) 1 state .memory = some next ∧
      next.availableMem = 50 :=
  ⟨_, _, rfl, rfl, rfl, by decide, by decide, rfl, by decide, rfl, rfl⟩

theorem availableMem_le_iff_presentScanRun :
    ∃ state next : Pager.State ℕ 2 1,
      isPresent (FarMemPtrMeta.pointerHpp 16) state.far 8 = true ∧
      (next.availableMem + occupied ObjectSize.sixteenByteHeader
          (FarMemPtrMeta.pointerHpp 16) state ≤ state.cacheSize ↔
        overhead ObjectSize.sixteenByteHeader (FarMemPtrMeta.pointerHpp 16) state ≤
          dropped (FarMemPtrMeta.pointerHpp 16) state) := by
  obtain ⟨state, next, hrun, hregistry, hmemory, hfirst, hsecond, hcacheSize, -, hstep, -⟩ :=
    run_presentScanRun
  refine ⟨state, next, hfirst, ?_⟩
  exact availableMem_le_iff (.of_run Pager.started_smallCache hrun)
    (hregistry ▸ accepted_smallCache) hmemory (by simp [hfirst, hsecond])
    (by rw [hcacheSize]; decide) hstep

/-- With 974 of 1000 bytes taken, the scan stores 50. -/
theorem not_forall_availableMem_le :
    ¬ ∀ (state next : Pager.State ℕ 2 1) (total : ℕ) (visits : List (ObjRef × Bool)),
      (Pager.machine (FarMemPtrMeta.pointerHpp 16) 1).Reachable state →
      Accepted ObjectSize.sixteenByteHeader state.registry →
      state.memory = .store total visits →
      (∀ visit ∈ visits, visit.2 =
        isPresent (FarMemPtrMeta.pointerHpp 16) state.far visit.1.ptr) →
      scanTotal visits ≤ state.cacheSize →
      Pager.step (FarMemPtrMeta.pointerHpp 16) 1 state .memory = some next →
      next.availableMem + occupied ObjectSize.sixteenByteHeader
        (FarMemPtrMeta.pointerHpp 16) state ≤ state.cacheSize := by
  intro hclaim
  obtain ⟨state, next, hrun, hregistry, hmemory, hfirst, hsecond, hcacheSize,
    hoccupied, hstep, hstored⟩ := run_presentScanRun
  have hfree := hclaim state next _ _ (.of_run Pager.started_smallCache hrun)
    (hregistry ▸ accepted_smallCache) hmemory (by simp [hfirst, hsecond])
    (by rw [hcacheSize]; decide) hstep
  rw [hstored, hoccupied, hcacheSize] at hfree
  exact absurd hfree (by decide)

end DynamicSwap.Overhead
