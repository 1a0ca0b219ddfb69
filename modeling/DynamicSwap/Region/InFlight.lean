import DynamicSwap.Region.Picking
import DynamicSwap.Region.Room

/-!
# Allocations in flight

A successful `allocate_object` adds one to the reference count in the header of
its region, and the operation that asked for the object takes it back once the
pointer is published.  Any number of threads run such operations on any cores
while regions are refilled, picked and pushed; only a region without such
objects is picked.
-/

namespace DynamicSwap

namespace RegionManager

/-- `atomic_inc_ref_cnt` on a region header. -/
def updateRefCnt (manager : RegionManager) (idx : BitVec 32) (change : ℕ → ℕ) :
    RegionManager :=
  { manager with
    headers := Function.update manager.headers idx
      { manager.headers idx with refCnt := change (manager.headers idx).refCnt } }

/-- `Region::is_gcable`: the count in the region's header is zero. -/
def isGcable (ops : RegionOps) (manager : RegionManager) (region : Region) : Bool :=
  (manager.headers (ops.headerIdx region)).refCnt == 0

def refCnt (manager : RegionManager) (idx : BitVec 32) : ℕ :=
  (manager.headers idx).refCnt

/-- A manager of distinct slices of the local cache none of which is in use. -/
structure Sliced (localCachePtr : ℕ) (manager : RegionManager) : Prop where
  cores : manager.HasCores
  indices : ((owned manager.regions).map Prod.fst).Nodup
  slices : ∀ identity ∈ owned manager.regions,
    identity.2 = some (localCachePtr + identity.1.toNat * Region.kSize)
  queues : ∀ region ∈ manager.queued, region.isInvalid = false
  unused : ∀ idx, manager.refCnt idx = 0

end RegionManager

namespace InFlight

open Library (own held held_append held_cons held_nil own_of_empty own_of_full)
open RegionManager (owned live)

/-- The callers of `allocate_local_object` and `allocate_local_object_nb`, with
whether the object gets a fresh remote id. -/
inductive Operation
  | allocateGenericUniquePtr (vanilla : Bool)
  | allocateGenericUniquePtrNb (vanilla : Bool)
  | reallocateGenericUniquePtrNb (vanilla : Bool)
  | swapIn (nt : Bool)
  | hotCopy
  deriving DecidableEq

/-- What an operation does between allocating its object and releasing it. -/
inductive Effect
  | publish
  | allocateRemote
  | readObject
  | copyObject
  | writeHeader
  | freeOld
  deriving DecidableEq

namespace Operation

/-- In source order. -/
def effects : Operation → List Effect
  | .allocateGenericUniquePtr vanilla | .allocateGenericUniquePtrNb vanilla =>
      if vanilla then [.publish, .allocateRemote, .writeHeader]
      else [.publish, .writeHeader]
  | .reallocateGenericUniquePtrNb vanilla =>
      if vanilla then [.copyObject, .publish, .allocateRemote, .writeHeader, .freeOld]
      else [.copyObject, .publish, .writeHeader, .freeOld]
  | .swapIn _ => [.readObject, .writeHeader, .publish]
  | .hotCopy => [.copyObject, .publish]

/-- `allocate_local_object` waits for the collector where its `_nb` form gives
up. -/
def blocks : Operation → Bool
  | .allocateGenericUniquePtr _ | .swapIn _ => true
  | .allocateGenericUniquePtrNb _ | .reallocateGenericUniquePtrNb _ | .hotCopy => false

def nt : Operation → Bool
  | .swapIn nt => nt
  | _ => false

end Operation

/-- An object size includes the object header, so it is positive. -/
structure Call where
  operation : Operation
  objectSize : ℕ
  objectSize_pos : 0 < objectSize
  deriving DecidableEq

inductive Pc
  | idle
  | allocating (call : Call)
  | holding (call : Call) (addr : ℕ) (effects : List Effect)
  deriving DecidableEq

structure State (count : ℕ) where
  circulation : Circulation.State
  threads : Fin count → Pc

/-- Each thread step runs on some core; a call without an allocation (a pointer
that is already present, a cold object) is no step. -/
inductive Action (count : ℕ)
  | begin (thread : Fin count) (call : Call)
  | allocateObject (thread : Fin count) (core : Fin kNumCPUs)
  | refill (thread : Fin count) (core : Fin kNumCPUs)
  | effect (thread : Fin count)
  | release (thread : Fin count)
  | beginPick (numRegionsPerGcRound : ℕ)
  | pick
  | push

/-- The region index of an address in the local cache. -/
def headerOf (localCachePtr addr : ℕ) : BitVec 32 :=
  BitVec.ofNat 32 ((addr - localCachePtr) / Region.kSize)

namespace State

variable {count : ℕ} (state : State count)

def manager : RegionManager := state.circulation.manager

def setThread (thread : Fin count) (pc : Pc) : State count :=
  { state with threads := Function.update state.threads thread pc }

def setManager (manager : RegionManager) : State count :=
  { state with circulation := { state.circulation with manager := manager } }

@[simp]
theorem manager_setThread (thread : Fin count) (pc : Pc) :
    (state.setThread thread pc).manager = state.manager := rfl

@[simp]
theorem manager_setManager (manager : RegionManager) :
    (state.setManager manager).manager = manager := rfl

@[simp]
theorem threads_setThread_self (thread : Fin count) (pc : Pc) :
    (state.setThread thread pc).threads thread = pc :=
  Function.update_self ..

@[simp]
theorem threads_setThread_of_ne {thread other : Fin count} (pc : Pc)
    (hne : other ≠ thread) :
    (state.setThread thread pc).threads other = state.threads other :=
  Function.update_of_ne hne ..

end State

variable (ops : RegionOps) (kPickRegionMaxRetryTimes localCachePtr : ℕ) {count : ℕ}

/-- `none` when the action is not enabled or a `BUG_ON` fires. -/
def step (state : State count) : Action count → Option (State count)
  | .begin thread call =>
      match state.threads thread with
      | .idle => some (state.setThread thread (.allocating call))
      | _ => none
  | .allocateObject thread core =>
      match state.threads thread with
      | .allocating call =>
          let slot := state.manager.coreLocalFreeRegion core call.operation.nt
          match ops.allocateObject slot call.objectSize with
          | none => none
          | some (addr, region) =>
              some ((state.setManager
                ((state.manager.setCoreLocalFreeRegion core call.operation.nt
                  region).updateRefCnt (ops.headerIdx slot) (· + 1))).setThread thread
                    (.holding call addr call.operation.effects))
      | _ => none
  | .refill thread core =>
      match state.threads thread with
      | .allocating call =>
          let slot := state.manager.coreLocalFreeRegion core call.operation.nt
          if (ops.allocateObject slot call.objectSize).isSome then none
          else
            match state.manager.tryRefillCoreLocalFreeRegion ops core
                call.operation.nt with
            | none => none
            | some (success, manager) =>
                if success || call.operation.blocks then some (state.setManager manager)
                else some ((state.setManager manager).setThread thread .idle)
      | _ => none
  | .effect thread =>
      match state.threads thread with
      | .holding call addr (_ :: effects) =>
          some (state.setThread thread (.holding call addr effects))
      | _ => none
  | .release thread =>
      match state.threads thread with
      | .holding _ addr [] =>
          some ((state.setManager (state.manager.updateRefCnt
            (headerOf localCachePtr addr) (· - 1))).setThread thread .idle)
      | _ => none
  | .beginPick numRegionsPerGcRound =>
      match Circulation.step ops kPickRegionMaxRetryTimes state.circulation
          (.beginPick numRegionsPerGcRound) with
      | none => none
      | some circulation => some { state with circulation := circulation }
  | .pick =>
      match Circulation.step ops kPickRegionMaxRetryTimes state.circulation
          (.pick (state.manager.isGcable ops)) with
      | none => none
      | some circulation => some { state with circulation := circulation }
  | .push =>
      match Circulation.step ops kPickRegionMaxRetryTimes state.circulation .push with
      | none => none
      | some circulation => some { state with circulation := circulation }

/-- From unused regions, no operation begun. -/
def machine (count : ℕ) : Library.Machine (State count) (Action count) where
  initial state :=
    state.manager.Sliced localCachePtr ∧
      (state.circulation.fromRegions = [] ∧ state.circulation.phase = .idle) ∧
      ∀ thread, state.threads thread = .idle
  step := step ops kPickRegionMaxRetryTimes localCachePtr

/-- The address lies in the slice of the cache with this index. -/
def InSlice (idx : BitVec 32) (addr : ℕ) : Prop :=
  localCachePtr + idx.toNat * Region.kSize ≤ addr ∧
    addr < localCachePtr + idx.toNat * Region.kSize + Region.kSize

instance (idx : BitVec 32) (addr : ℕ) : Decidable (InSlice localCachePtr idx addr) :=
  inferInstanceAs (Decidable (_ ∧ _))

/-- The thread has allocated an object in a slice and not yet released it. -/
def Pc.Holds (idx : BitVec 32) : Pc → Prop
  | .holding _ addr _ => InSlice localCachePtr idx addr
  | _ => False

instance (idx : BitVec 32) : DecidablePred (Pc.Holds localCachePtr idx)
  | .idle | .allocating _ => .isFalse id
  | .holding _ addr _ => inferInstanceAs (Decidable (InSlice localCachePtr idx addr))

/-- How many allocated objects of a region await their release. -/
def inFlight (state : State count) (idx : BitVec 32) : ℕ :=
  (Finset.univ.filter fun thread =>
    Pc.Holds localCachePtr idx (state.threads thread)).card

/-- What every step keeps. -/
structure Inv (total : Multiset (BitVec 32 × Option ℕ)) (capacity : ℕ)
    (state : State count) : Prop where
  circulation : Circulation.Inv total state.circulation
  room : Circulation.RoomInv capacity state.circulation
  counts : ∀ idx, state.manager.refCnt idx = inFlight localCachePtr state idx
  released : ∀ region ∈ state.circulation.unpushed,
    state.manager.refCnt region.regionIdx = 0
  addressed : ∀ thread call addr effects,
    state.threads thread = .holding call addr effects →
      InSlice localCachePtr (headerOf localCachePtr addr) addr

end InFlight

namespace RegionManager

variable {ops : RegionOps} {manager next : RegionManager} {core : Fin kNumCPUs} {nt : Bool}

/-! ## Reference counts -/

@[simp]
theorem refCnt_updateRefCnt_self (idx : BitVec 32) (change : ℕ → ℕ) :
    (manager.updateRefCnt idx change).refCnt idx = change (manager.refCnt idx) := by
  simp [updateRefCnt, refCnt]

@[simp]
theorem refCnt_updateRefCnt_of_ne {idx other : BitVec 32} (change : ℕ → ℕ)
    (hne : other ≠ idx) :
    (manager.updateRefCnt idx change).refCnt other = manager.refCnt other := by
  simp [updateRefCnt, refCnt, Function.update_of_ne hne]

theorem Keeps.updateRefCnt (hkeeps : manager.Keeps next) (idx : BitVec 32)
    (change : ℕ → ℕ) : manager.Keeps (next.updateRefCnt idx change) :=
  ⟨⟨hkeeps.cores.regions, hkeeps.cores.ntRegions⟩, hkeeps.owned⟩

@[simp]
theorem filled_updateRefCnt (idx : BitVec 32) (change : ℕ → ℕ) :
    (manager.updateRefCnt idx change).filled = manager.filled := rfl

@[simp]
theorem freeRegions_updateRefCnt (idx : BitVec 32) (change : ℕ → ℕ) :
    (manager.updateRefCnt idx change).freeRegions = manager.freeRegions := rfl

@[simp]
theorem capacity_updateRefCnt (idx : BitVec 32) (change : ℕ → ℕ) :
    (manager.updateRefCnt idx change).capacity = manager.capacity := rfl

@[simp]
theorem refCnt_setCoreLocalFreeRegion (region : Region) :
    (manager.setCoreLocalFreeRegion core nt region).refCnt = manager.refCnt := by
  cases nt <;> rfl

@[simp]
theorem refCnt_setNt (region : Region) :
    (manager.setNt ops region).refCnt = manager.refCnt := by
  funext idx
  by_cases hidx : idx = ops.headerIdx region
  · simp [setNt, refCnt, hidx]
  · simp [setNt, refCnt, Function.update_of_ne hidx]

theorem refCnt_pushFullRegion (hpush : manager.pushFullRegion ops core nt = some next) :
    next.refCnt = manager.refCnt := by
  simp only [pushFullRegion] at hpush
  split at hpush
  · cases hpush
    rfl
  split at hpush
  all_goals
    split at hpush
    · cases hpush
    · cases hpush
      exact refCnt_setCoreLocalFreeRegion _

theorem refCnt_popFreeRegion :
    (manager.popFreeRegion ops core nt).2.refCnt = manager.refCnt := by
  unfold popFreeRegion
  split
  · cases hfree : manager.freeRegions with
    | nil =>
        cases nt with
        | true => exact refCnt_setNt _
        | false => rfl
    | cons region freeRegions =>
        have hset : ({ manager with
            freeRegions := freeRegions }.setCoreLocalFreeRegion core nt region).refCnt =
              manager.refCnt := refCnt_setCoreLocalFreeRegion region
        cases nt with
        | true => exact (refCnt_setNt _).trans hset
        | false => exact hset
  · rfl

theorem refCnt_tryRefill {success : Bool}
    (hrefill : manager.tryRefillCoreLocalFreeRegion ops core nt =
      some (success, next)) : next.refCnt = manager.refCnt := by
  obtain ⟨pushed, hpush, hpop⟩ := tryRefill_eq_some hrefill
  have hpopped : (pushed.popFreeRegion ops core nt).2.refCnt = pushed.refCnt :=
    refCnt_popFreeRegion
  rw [hpop] at hpopped
  exact hpopped.trans (refCnt_pushFullRegion hpush)

theorem headers_popUsedRegion (retries : ℕ) (isGcable : Region → Bool) :
    (manager.popUsedRegion retries isGcable).2.headers = manager.headers := by
  unfold popUsedRegion
  split <;> rfl

/-- A region without allocations in flight is reset with a zero count. -/
theorem refCnt_pushFreeRegion {region : Region}
    (hzero : manager.refCnt (ops.headerIdx region) = 0)
    (hpush : manager.pushFreeRegion ops region = some next) :
    next.refCnt = manager.refCnt := by
  obtain ⟨-, rfl⟩ := pushFreeRegion_eq_some hpush
  funext idx
  by_cases hidx : idx = ops.headerIdx region
  · rw [hidx, hzero]
    simpa [refCnt] using ops.refCnt_resetHeader _ hzero
  · simp [refCnt, Function.update_of_ne hidx]

theorem HasCores.slot_mem (hcores : manager.HasCores) (core : Fin kNumCPUs) (nt : Bool) :
    manager.coreLocalFreeRegion core nt ∈
      manager.coreLocalFreeRegions ++ manager.coreLocalFreeNtRegions := by
  have hlt := core.isLt
  rw [List.mem_append]
  cases nt with
  | true =>
      right
      rw [coreLocalFreeRegion, if_pos rfl,
        List.getD_eq_getElem _ _ (by rwa [hcores.ntRegions])]
      exact List.getElem_mem _
  | false =>
      left
      rw [coreLocalFreeRegion, if_neg Bool.false_ne_true,
        List.getD_eq_getElem _ _ (by rwa [hcores.regions])]
      exact List.getElem_mem _

end RegionManager

namespace InFlight

open Library (own held held_append held_cons held_nil own_of_empty own_of_full)
open RegionManager (owned live)

variable {ops : RegionOps} {kPickRegionMaxRetryTimes localCachePtr count capacity : ℕ}
variable {total : Multiset (BitVec 32 × Option ℕ)} {state next : State count}

theorem headerOf_of_inSlice {idx : BitVec 32} {addr : ℕ}
    (hslice : InSlice localCachePtr idx addr) : headerOf localCachePtr addr = idx := by
  obtain ⟨hleft, hright⟩ := hslice
  have hdiv : (addr - localCachePtr) / Region.kSize = idx.toNat := by
    rw [Region.kSize_eq] at *
    omega
  rw [headerOf, hdiv, BitVec.ofNat_toNat, BitVec.setWidth_eq]

theorem eq_of_inSlice {first second : BitVec 32} {addr : ℕ}
    (hfirst : InSlice localCachePtr first addr)
    (hsecond : InSlice localCachePtr second addr) : first = second :=
  (headerOf_of_inSlice hfirst).symm.trans (headerOf_of_inSlice hsecond)

theorem inFlight_setThread (localCachePtr : ℕ) (state : State count)
    (thread : Fin count) (pc : Pc) (idx : BitVec 32) :
    inFlight localCachePtr (state.setThread thread pc) idx +
        (if Pc.Holds localCachePtr idx (state.threads thread) then 1 else 0) =
      inFlight localCachePtr state idx +
        (if Pc.Holds localCachePtr idx pc then 1 else 0) :=
  Library.card_filter_update _ _ _ _

theorem inFlight_setThread_of_iff {thread : Fin count} {pc : Pc} {idx : BitVec 32}
    (hsame : Pc.Holds localCachePtr idx pc ↔
      Pc.Holds localCachePtr idx (state.threads thread)) :
    inFlight localCachePtr (state.setThread thread pc) idx =
      inFlight localCachePtr state idx := by
  have hcount := inFlight_setThread localCachePtr state thread pc idx
  simp only [hsame] at hcount
  omega

/-- The steps by what they do to the counts and to the threads. -/
inductive Transition (ops : RegionOps) (kPickRegionMaxRetryTimes localCachePtr : ℕ)
    (state : State count) : State count → Prop
  | proceed (thread : Fin count) (pc : Pc)
      (hsame : ∀ idx, Pc.Holds localCachePtr idx pc ↔
        Pc.Holds localCachePtr idx (state.threads thread))
      (hheld : ∀ call addr effects, pc = .holding call addr effects →
        ∃ earlier, state.threads thread = .holding call addr earlier) :
      Transition ops kPickRegionMaxRetryTimes localCachePtr state (state.setThread thread pc)
  | allocate (thread : Fin count) (core : Fin kNumCPUs) (call : Call) (addr : ℕ)
      (region : Region) (hpc : state.threads thread = .allocating call)
      (hallocate : ops.allocateObject
        (state.manager.coreLocalFreeRegion core call.operation.nt) call.objectSize =
          some (addr, region)) :
      Transition ops kPickRegionMaxRetryTimes localCachePtr state ((state.setManager
        ((state.manager.setCoreLocalFreeRegion core call.operation.nt
          region).updateRefCnt (ops.headerIdx
            (state.manager.coreLocalFreeRegion core call.operation.nt))
              (· + 1))).setThread thread (.holding call addr call.operation.effects))
  | refill (thread : Fin count) (core : Fin kNumCPUs) (call : Call) (success : Bool)
      (manager : RegionManager) (next : State count)
      (hpc : state.threads thread = .allocating call)
      (hrefill : state.manager.tryRefillCoreLocalFreeRegion ops core call.operation.nt =
        some (success, manager))
      (hnext : next = state.setManager manager ∨
        next = (state.setManager manager).setThread thread .idle) :
      Transition ops kPickRegionMaxRetryTimes localCachePtr state next
  | release (thread : Fin count) (call : Call) (addr : ℕ)
      (hpc : state.threads thread = .holding call addr []) :
      Transition ops kPickRegionMaxRetryTimes localCachePtr state ((state.setManager
        (state.manager.updateRefCnt (headerOf localCachePtr addr) (· - 1))).setThread
          thread .idle)
  | beginPick (numRegionsPerGcRound : ℕ) (circulation : Circulation.State)
      (hbegin : Circulation.step ops kPickRegionMaxRetryTimes state.circulation
        (.beginPick numRegionsPerGcRound) = some circulation) :
      Transition ops kPickRegionMaxRetryTimes localCachePtr state
        { state with circulation := circulation }
  | pick (circulation : Circulation.State)
      (hpick : Circulation.step ops kPickRegionMaxRetryTimes state.circulation
        (.pick (state.manager.isGcable ops)) = some circulation) :
      Transition ops kPickRegionMaxRetryTimes localCachePtr state
        { state with circulation := circulation }
  | push (circulation : Circulation.State)
      (hpush : Circulation.step ops kPickRegionMaxRetryTimes state.circulation .push =
        some circulation) :
      Transition ops kPickRegionMaxRetryTimes localCachePtr state
        { state with circulation := circulation }

theorem transition_of_step {action : Action count}
    (hstep : step ops kPickRegionMaxRetryTimes localCachePtr state action = some next) :
    Transition ops kPickRegionMaxRetryTimes localCachePtr state next := by
  cases action with
  | begin thread call =>
      rw [step] at hstep
      split at hstep
      · rename_i hpc
        cases hstep
        apply Transition.proceed
        · intro idx
          rw [hpc]
          rfl
        · intro otherCall addr effects hother
          cases hother
      · cases hstep
  | allocateObject thread core =>
      rw [step] at hstep
      split at hstep
      · rename_i call hpc
        dsimp only at hstep
        split at hstep
        · cases hstep
        · rename_i addr region hallocate
          cases hstep
          exact .allocate thread core call addr region hpc hallocate
      · cases hstep
  | refill thread core =>
      rw [step] at hstep
      split at hstep
      · rename_i call hpc
        dsimp only at hstep
        split at hstep
        · cases hstep
        split at hstep
        · cases hstep
        rename_i success manager hrefill
        apply Transition.refill thread core call success manager next hpc hrefill
        split at hstep
        · exact .inl (Option.some.inj hstep).symm
        · exact .inr (Option.some.inj hstep).symm
      · cases hstep
  | effect thread =>
      rw [step] at hstep
      split at hstep
      · rename_i call addr effect effects hpc
        cases hstep
        apply Transition.proceed
        · intro idx
          rw [hpc]
          rfl
        · intro otherCall otherAddr otherEffects hother
          cases hother
          exact ⟨_, hpc⟩
      · cases hstep
  | release thread =>
      rw [step] at hstep
      split at hstep
      · rename_i call addr hpc
        cases hstep
        exact .release thread call addr hpc
      · cases hstep
  | beginPick numRegionsPerGcRound =>
      rw [step] at hstep
      split at hstep
      · cases hstep
      · rename_i circulation hbegin
        cases hstep
        exact .beginPick numRegionsPerGcRound circulation hbegin
  | pick =>
      rw [step] at hstep
      split at hstep
      · cases hstep
      · rename_i circulation hpick
        cases hstep
        exact .pick circulation hpick
  | push =>
      rw [step] at hstep
      split at hstep
      · cases hstep
      · rename_i circulation hpush
        cases hstep
        exact .push circulation hpush

section Step

variable (hnodup : (total.map Prod.fst).Nodup)
variable (hslices : ∀ identity ∈ total,
  identity.2 = some (localCachePtr + identity.1.toNat * Region.kSize))

include hnodup in
/-- The region of a core's slot is nowhere else. -/
theorem Inv.slot_ne {core : Fin kNumCPUs} {nt : Bool} {region : Region}
    (hinv : Inv localCachePtr total capacity state)
    (hslot : (state.manager.coreLocalFreeRegion core nt).isInvalid = false)
    (hregion : region ∈ state.manager.filled ++ state.circulation.unpushed) :
    region.regionIdx ≠ (state.manager.coreLocalFreeRegion core nt).regionIdx := by
  have hvalid := hinv.room.filled region hregion
  have hplaces : ((live state.circulation.places).map Region.regionIdx).Nodup := by
    have howned := hinv.circulation.conserved
    rw [RegionManager.owned] at howned
    rw [← howned, Multiset.map_map] at hnodup
    exact hnodup
  have hsplit : state.circulation.places =
      (state.manager.coreLocalFreeRegions ++ state.manager.coreLocalFreeNtRegions) ++
        (state.manager.freeRegions ++ state.manager.usedRegions ++
          state.manager.ntUsedRegions ++ state.circulation.fromRegions) := by
    simp only [Circulation.State.places, RegionManager.regions, State.manager,
      List.append_assoc]
  rw [hsplit] at hplaces
  refine (Circulation.regionIdx_ne_of_nodup hplaces
    (hinv.circulation.cores.slot_mem core nt) hslot ?_ hvalid).symm
  rcases List.mem_append.mp hregion with hfilled | hunpushed
  · rw [RegionManager.filled, List.mem_append] at hfilled
    simp only [List.mem_append]
    tauto
  · have hfrom := Circulation.State.mem_of_mem_unpushed hunpushed
    simp only [List.mem_append]
    tauto

theorem Inv.addressed_setThread {thread : Fin count} {pc : Pc}
    (hinv : Inv localCachePtr total capacity state)
    (haddressed : ∀ call addr effects, pc = .holding call addr effects →
      InSlice localCachePtr (headerOf localCachePtr addr) addr) (other : Fin count)
    (call : Call) (addr : ℕ) (effects : List Effect)
    (hother : (state.setThread thread pc).threads other = .holding call addr effects) :
    InSlice localCachePtr (headerOf localCachePtr addr) addr := by
  by_cases hthread : other = thread
  · subst hthread
    rw [State.threads_setThread_self] at hother
    exact haddressed call addr effects hother
  · rw [State.threads_setThread_of_ne _ _ hthread] at hother
    exact hinv.addressed other call addr effects hother

/-- A step that leaves the holders of each slice alone. -/
theorem Inv.setThread {thread : Fin count} {pc : Pc}
    (hinv : Inv localCachePtr total capacity state)
    (hsame : ∀ idx, Pc.Holds localCachePtr idx pc ↔
      Pc.Holds localCachePtr idx (state.threads thread))
    (haddressed : ∀ call addr effects, pc = .holding call addr effects →
      InSlice localCachePtr (headerOf localCachePtr addr) addr) :
    Inv localCachePtr total capacity (state.setThread thread pc) := by
  constructor
  case circulation => exact hinv.circulation
  case room => exact hinv.room
  case counts =>
    intro idx
    rw [inFlight_setThread_of_iff (hsame idx)]
    exact hinv.counts idx
  case released => exact hinv.released
  case addressed => exact hinv.addressed_setThread haddressed

/-- A step of the collector or a refill: no count changes. -/
theorem Inv.circulate {circulation : Circulation.State} {action : Circulation.Action}
    (hinv : Inv localCachePtr total capacity state)
    (hstep : Circulation.step ops kPickRegionMaxRetryTimes state.circulation action =
      some circulation)
    (hcounts : circulation.manager.refCnt = state.manager.refCnt)
    (hreleased : ∀ region ∈ circulation.unpushed,
      region ∈ state.circulation.unpushed ∨ state.manager.refCnt region.regionIdx = 0) :
    Inv localCachePtr total capacity { state with circulation := circulation } := by
  constructor
  case circulation => exact hinv.circulation.step hstep
  case room => exact hinv.room.step hinv.circulation.cores hstep
  case counts => exact fun idx => (congrFun hcounts idx).trans (hinv.counts idx)
  case released =>
    intro region hregion
    apply (congrFun hcounts region.regionIdx).trans
    rcases hreleased region hregion with hold | hzero
    · exact hinv.released region hold
    · exact hzero
  case addressed => exact hinv.addressed

include hslices in
/-- An allocation stays in the slice of the slot's region. -/
theorem Inv.inSlice_of_allocateObject {core : Fin kNumCPUs} {call : Call} {addr : ℕ}
    {region : Region} (hinv : Inv localCachePtr total capacity state)
    (hallocate : ops.allocateObject
      (state.manager.coreLocalFreeRegion core call.operation.nt) call.objectSize =
        some (addr, region)) :
    InSlice localCachePtr
      (state.manager.coreLocalFreeRegion core call.operation.nt).regionIdx addr := by
  have howned : (state.manager.coreLocalFreeRegion core call.operation.nt).identity ∈
      total := by
    rw [← hinv.circulation.conserved, RegionManager.mem_owned]
    refine ⟨_, ?_, RegionOps.isInvalid_of_allocateObject hallocate, rfl⟩
    have hmem := hinv.circulation.cores.slot_mem core call.operation.nt
    simp only [Circulation.State.places, RegionManager.regions, List.append_assoc]
    rw [← List.append_assoc]
    exact List.mem_append_left _ hmem
  have hfits := ops.allocateObject_fits _ _ _ _ _ hallocate (hslices _ howned)
  have hpos := call.objectSize_pos
  rw [InSlice]
  dsimp only [Region.identity] at hfits
  omega

include hnodup hslices in
/-- A successful allocation: the slot's region gains one object. -/
theorem Inv.allocateObject {thread : Fin count} {core : Fin kNumCPUs} {call : Call}
    {addr : ℕ} {region : Region} (hinv : Inv localCachePtr total capacity state)
    (hpc : state.threads thread = .allocating call)
    (hallocate : ops.allocateObject
      (state.manager.coreLocalFreeRegion core call.operation.nt) call.objectSize =
        some (addr, region)) :
    Inv localCachePtr total capacity ((state.setManager
      ((state.manager.setCoreLocalFreeRegion core call.operation.nt region).updateRefCnt
        (ops.headerIdx (state.manager.coreLocalFreeRegion core call.operation.nt))
          (· + 1))).setThread thread (.holding call addr call.operation.effects)) := by
  have hvalid := RegionOps.isInvalid_of_allocateObject hallocate
  have hslice := hinv.inSlice_of_allocateObject hslices hallocate
  rw [ops.headerIdx_valid _ hvalid]
  constructor
  case circulation =>
    exact hinv.circulation.setManager
      ((hinv.circulation.cores.allocateObject hallocate).1.updateRefCnt _ _)
  case room =>
    apply hinv.room.setManager
    · simp [State.manager]
    · simp [State.manager]
    · simp [State.manager]
  case counts =>
    intro idx
    have hcount := inFlight_setThread localCachePtr state thread
      (.holding call addr call.operation.effects) idx
    have hbefore : ¬ Pc.Holds localCachePtr idx (state.threads thread) := by
      rw [hpc]
      exact id
    rw [if_neg hbefore, add_zero] at hcount
    have hold := hinv.counts idx
    by_cases hidx : idx =
        (state.manager.coreLocalFreeRegion core call.operation.nt).regionIdx
    · have hholds : Pc.Holds localCachePtr idx
          (.holding call addr call.operation.effects) := by
        rw [hidx]
        exact hslice
      rw [if_pos hholds] at hcount
      calc
        _ = state.manager.refCnt idx + 1 := by
          rw [hidx]
          simp
        _ = inFlight localCachePtr state idx + 1 := by rw [hold]
        _ = _ := hcount.symm
    · have hholds : ¬ Pc.Holds localCachePtr idx
          (.holding call addr call.operation.effects) :=
        fun hother => hidx (eq_of_inSlice hother hslice)
      rw [if_neg hholds] at hcount
      calc
        _ = state.manager.refCnt idx := by
          simp [hidx]
        _ = inFlight localCachePtr state idx + 0 := hold
        _ = _ := hcount.symm
  case released =>
    intro other hother
    have hne := hinv.slot_ne hnodup hvalid (List.mem_append_right _ hother)
    calc
      _ = state.manager.refCnt other.regionIdx := by
        simp [hne]
      _ = 0 := hinv.released other hother
  case addressed =>
    apply hinv.addressed_setThread
    intro otherCall otherAddr effects hother
    cases hother
    rw [headerOf_of_inSlice hslice]
    exact hslice

/-- The count taken back is the one that the allocation added. -/
theorem Inv.release {thread : Fin count} {call : Call} {addr : ℕ}
    (hinv : Inv localCachePtr total capacity state)
    (hpc : state.threads thread = .holding call addr []) :
    Inv localCachePtr total capacity ((state.setManager
      (state.manager.updateRefCnt (headerOf localCachePtr addr) (· - 1))).setThread thread
        .idle) := by
  have hslice := hinv.addressed thread call addr [] hpc
  constructor
  case circulation =>
    exact hinv.circulation.setManager
      (RegionManager.Keeps.updateRefCnt ⟨hinv.circulation.cores, rfl⟩ _ _)
  case room => exact hinv.room.setManager rfl rfl rfl
  case counts =>
    intro idx
    have hcount := inFlight_setThread localCachePtr state thread .idle idx
    rw [hpc] at hcount
    have hold := hinv.counts idx
    by_cases hidx : idx = headerOf localCachePtr addr
    · have hholds : Pc.Holds localCachePtr idx (.holding call addr []) := by
        rw [hidx]
        exact hslice
      rw [if_pos hholds, if_neg (show ¬ Pc.Holds localCachePtr idx .idle from id)] at hcount
      calc
        _ = state.manager.refCnt idx - 1 := by
          rw [hidx]
          simp
        _ = inFlight localCachePtr state idx - 1 := by rw [hold]
        _ = inFlight localCachePtr (state.setThread thread .idle) idx := by omega
    · have hholds : ¬ Pc.Holds localCachePtr idx (.holding call addr []) :=
        fun hother => hidx (headerOf_of_inSlice hother).symm
      rw [if_neg hholds, if_neg (show ¬ Pc.Holds localCachePtr idx .idle from id)] at hcount
      calc
        _ = state.manager.refCnt idx := by
          simp [hidx]
        _ = inFlight localCachePtr state idx := hold
        _ = inFlight localCachePtr (state.setThread thread .idle) idx := by omega
  case released =>
    intro other hother
    have hold := hinv.released other hother
    by_cases hidx : other.regionIdx = headerOf localCachePtr addr
    · calc
        _ = state.manager.refCnt (headerOf localCachePtr addr) - 1 := by
          rw [hidx]
          simp
        _ = 0 := by rw [← hidx, hold]
    · calc
        _ = state.manager.refCnt other.regionIdx := by
          simp [hidx]
        _ = 0 := hold
  case addressed =>
    apply hinv.addressed_setThread
    intro otherCall otherAddr effects hother
    cases hother

/-- A refill leaves the counts alone. -/
theorem Inv.refill {core : Fin kNumCPUs} {nt success : Bool} {manager : RegionManager}
    (hinv : Inv localCachePtr total capacity state)
    (hrefill : state.manager.tryRefillCoreLocalFreeRegion ops core nt =
      some (success, manager)) :
    Inv localCachePtr total capacity (state.setManager manager) := by
  have hstep : Circulation.step ops 0 state.circulation (.refill core nt) =
      some { state.circulation with manager := manager } := by
    unfold State.manager at hrefill
    simp only [Circulation.step, hrefill]
  exact hinv.circulate hstep (RegionManager.refCnt_tryRefill hrefill)
    fun region hregion => .inl hregion

theorem refCnt_of_pick {isGcable : Region → Bool} {circulation : Circulation.State}
    (hstep : Circulation.step ops kPickRegionMaxRetryTimes state.circulation
      (.pick isGcable) = some circulation) :
    circulation.manager.refCnt = state.manager.refCnt := by
  funext idx
  rw [(Circulation.step_pick_eq_some hstep).1]
  exact congrArg RegionHeader.refCnt
    (congrFun (RegionManager.headers_popUsedRegion kPickRegionMaxRetryTimes isGcable) idx)

/-- A pushed region has a zero count and is reset with one. -/
theorem Inv.refCnt_of_push {circulation : Circulation.State}
    (hinv : Inv localCachePtr total capacity state)
    (hstep : Circulation.step ops kPickRegionMaxRetryTimes state.circulation .push =
      some circulation) :
    circulation.manager.refCnt = state.manager.refCnt := by
  rcases Circulation.step_push_eq_some hstep with
    ⟨hmanager, -⟩ | ⟨region, hunpushed, hpush⟩
  · rw [hmanager]
    rfl
  · have hmem : region ∈ state.circulation.unpushed := by
      rw [hunpushed]
      exact List.mem_cons_self
    apply RegionManager.refCnt_pushFreeRegion _ hpush
    rw [ops.headerIdx_valid region
      (hinv.room.filled region (List.mem_append_right _ hmem))]
    exact hinv.released region hmem

/-- Only a region with a zero count is picked. -/
theorem Inv.pick {circulation : Circulation.State}
    (hinv : Inv localCachePtr total capacity state)
    (hstep : Circulation.step ops kPickRegionMaxRetryTimes state.circulation
      (.pick (state.manager.isGcable ops)) = some circulation) :
    Inv localCachePtr total capacity { state with circulation := circulation } := by
  have hunpushed := (Circulation.step_pick_eq_some hstep).2
  apply hinv.circulate hstep
  · exact refCnt_of_pick hstep
  · intro region hregion
    rw [hunpushed] at hregion
    rcases List.mem_append.mp hregion with hold | hpicked
    · exact .inl hold
    · right
      have hgcable : state.manager.isGcable ops region = true :=
        RegionManager.gcable_popUsedRegion region (Option.mem_toList.mp hpicked)
      have hfilled : region ∈ state.manager.filled :=
        (RegionManager.picked_popUsedRegion _ _ _).filled.mem_iff.mp
          (List.mem_append_left _ hpicked)
      have hvalid := hinv.room.filled region (List.mem_append_left _ hfilled)
      rw [RegionManager.isGcable, beq_iff_eq, ops.headerIdx_valid region hvalid] at hgcable
      exact hgcable

theorem Inv.push {circulation : Circulation.State}
    (hinv : Inv localCachePtr total capacity state)
    (hstep : Circulation.step ops kPickRegionMaxRetryTimes state.circulation .push =
      some circulation) :
    Inv localCachePtr total capacity { state with circulation := circulation } := by
  apply hinv.circulate hstep (hinv.refCnt_of_push hstep)
  intro other hother
  left
  rcases Circulation.step_push_eq_some hstep with
    ⟨-, hunpushed⟩ | ⟨region, hunpushed, -⟩
  · exact hunpushed ▸ hother
  · rw [hunpushed]
    exact List.mem_cons_of_mem _ hother

include hnodup hslices in
theorem Inv.step {action : Action count} (hinv : Inv localCachePtr total capacity state)
    (hstep : step ops kPickRegionMaxRetryTimes localCachePtr state action = some next) :
    Inv localCachePtr total capacity next := by
  cases transition_of_step hstep with
  | proceed thread pc hsame hheld =>
      apply hinv.setThread hsame
      intro call addr effects hholding
      obtain ⟨earlier, hpc⟩ := hheld call addr effects hholding
      exact hinv.addressed thread call addr earlier hpc
  | allocate thread core call addr region hpc hallocate =>
      exact hinv.allocateObject hnodup hslices hpc hallocate
  | refill thread core call success manager next hpc hrefill hnext =>
      have hrefilled := hinv.refill hrefill
      rcases hnext with rfl | rfl
      · exact hrefilled
      · apply hrefilled.setThread
        · intro idx
          rw [State.setManager, hpc]
          rfl
        · intro otherCall addr effects hother
          cases hother
  | release thread call addr hpc => exact hinv.release hpc
  | beginPick numRegionsPerGcRound circulation hbegin =>
      obtain ⟨hmanager, hunpushed⟩ := Circulation.step_beginPick_eq_some hbegin
      apply hinv.circulate hbegin
      · rw [hmanager]
        rfl
      · exact fun region hregion => .inl (hunpushed ▸ hregion)
  | pick circulation hpick => exact hinv.pick hpick
  | push circulation hpush => exact hinv.push hpush

end Step

/-! ## Runs -/

/-- Distinct slices in the places of a run and what every step keeps. -/
def Sound (localCachePtr : ℕ) (state : State count) : Prop :=
  ∃ total capacity, (total.map Prod.fst).Nodup ∧
    (∀ identity ∈ total,
      identity.2 = some (localCachePtr + identity.1.toNat * Region.kSize)) ∧
    Inv localCachePtr total capacity state

section Construct

variable {size : ℕ} {manager : RegionManager}

end Construct

end InFlight

end DynamicSwap
