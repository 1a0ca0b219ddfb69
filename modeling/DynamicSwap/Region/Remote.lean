import DynamicSwap.Core.Pointer
import DynamicSwap.Library.Machine
import DynamicSwap.Region.Circulation

/-!
# Remote objects

`allocate_remote_object` bumps through the core's region of the far-memory
manager and refills it when an object does not fit.  Regions of far memory are
never collected, so the objects of one region lie below its bump offset for
ever, and regions with distinct indices have disjoint slices of the space.
-/

namespace DynamicSwap.Remote

open Library (own held held_append held_cons held_nil own_of_empty own_of_full)
open RegionManager (owned live)

/-- A remote region's `allocate_object`: its slice of the space plus an offset
that grows by what is allocated and stays within `kSize`. -/
def BumpsRemote (ops : RegionOps) : Prop :=
  ∀ region objectSize id next, region.bufPtr = none →
    ops.allocateObject region objectSize = some (id, next) →
      ∃ offset, id = region.regionIdx.toNat * Region.kSize + offset ∧
        region.firstFreeByteIdx ≤ offset ∧
        offset + objectSize ≤ next.firstFreeByteIdx ∧
        offset + objectSize ≤ Region.kSize

/-- A remote object: the id that `allocate_remote_object` returned and the
`uint16_t` size that it was called with. -/
structure RemoteObject where
  id : ℕ
  size : BitVec 16
  deriving DecidableEq

/-- The byte ranges have no byte in common. -/
def Apart (first second : RemoteObject) : Prop :=
  first.id + first.size.toNat ≤ second.id ∨ second.id + second.size.toNat ≤ first.id

/-! ## The device -/

/-- The device as an array of bytes. -/
abbrev Device := ℕ → BitVec 8

def writeBytes (device : Device) (id : ℕ) (data : List (BitVec 8)) : Device :=
  fun address =>
    if id ≤ address then (data[address - id]?).getD (device address) else device address

def readBytes (device : Device) (id length : ℕ) : List (BitVec 8) :=
  (List.range length).map fun offset => device (id + offset)

/-- Writing the one object back does not change what the other one reads. -/
def Unaffected (writer reader : RemoteObject) : Prop :=
  ∀ (device : Device) (data : List (BitVec 8)), data.length ≤ writer.size.toNat →
    readBytes (writeBytes device writer.id data) reader.id reader.size.toNat =
      readBytes device reader.id reader.size.toNat

theorem Apart.symm {first second : RemoteObject} (hapart : Apart first second) :
    Apart second first :=
  Or.symm hapart

theorem Apart.unaffected {writer reader : RemoteObject} (hapart : Apart writer reader) :
    Unaffected writer reader := by
  intro device data hlength
  apply List.map_congr_left
  intro offset hoffset
  have hlt := List.mem_range.mp hoffset
  unfold writeBytes
  split
  · rename_i hle
    have hbeyond : data.length ≤ reader.id + offset - writer.id := by
      unfold Apart at hapart
      omega
    rw [List.getElem?_eq_none_iff.mpr hbeyond, Option.getD_none]
  · rfl

/-! ## Allocation -/

/-- Far-memory regions, for each thread the size it is asking for, and every
object ever returned, newest first. -/
structure State (count : ℕ) where
  manager : RegionManager
  threads : Fin count → Option (BitVec 16)
  allocated : List RemoteObject

/-- `call` enters `allocate_remote_object(false, objectSize)`, the other two are
an iteration of its loop on some core. -/
inductive Action (count : ℕ)
  | call (thread : Fin count) (objectSize : BitVec 16)
  | allocateObject (thread : Fin count) (core : Fin kNumCPUs)
  | refill (thread : Fin count) (core : Fin kNumCPUs)

variable (ops : RegionOps) {count : ℕ}

/-- `none` when the action is not enabled or a `BUG_ON` fires.  The loop goes on
after a failed refill: collection of far memory is not implemented. -/
def step (state : State count) : Action count → Option (State count)
  | .call thread objectSize =>
      match state.threads thread with
      | none => some { state with
          threads := Function.update state.threads thread (some objectSize) }
      | some _ => none
  | .allocateObject thread core =>
      match state.threads thread with
      | none => none
      | some objectSize =>
          match ops.allocateObject (state.manager.coreLocalFreeRegion core false)
              objectSize.toNat with
          | none => none
          | some (id, region) =>
              some
                { manager := state.manager.setCoreLocalFreeRegion core false region
                  threads := Function.update state.threads thread none
                  allocated := ⟨id, objectSize⟩ :: state.allocated }
  | .refill thread core =>
      match state.threads thread with
      | none => none
      | some objectSize =>
          if (ops.allocateObject (state.manager.coreLocalFreeRegion core false)
              objectSize.toNat).isSome then none
          else
            match state.manager.tryRefillCoreLocalFreeRegion ops core false with
            | none => none
            | some (_, manager) => some { state with manager := manager }

/-- From the far-memory manager of a size that passes the `BUG_ON` of
`FarMemManager::FarMemManager`. -/
def machine (farMemSize count : ℕ) : Library.Machine (State count) (Action count) where
  initial state :=
    farMemSize < 2 ^ FarMemPtrMeta.kObjectIDBitSize ∧
      RegionManager.construct farMemSize false 0 = some state.manager ∧
      (∀ thread, state.threads thread = none) ∧ state.allocated = []
  step := step ops

/-- The object lies in the region's slice, below its bump offset. -/
def Below (region : Region) (object : RemoteObject) : Prop :=
  ∃ offset, object.id = region.regionIdx.toNat * Region.kSize + offset ∧
    offset + object.size.toNat ≤ region.firstFreeByteIdx ∧
    offset + object.size.toNat ≤ Region.kSize

/-- What every step keeps: regions with distinct indices, each object in the
slice of a region and below its bump offset. -/
structure Inv (state : State count) : Prop where
  cores : state.manager.HasCores
  remote : ∀ region ∈ live state.manager.regions, region.bufPtr = none
  indices : ((live state.manager.regions).map Region.regionIdx).Nodup
  below : ∀ object ∈ state.allocated, ∃ region ∈ live state.manager.regions,
    Below region object
  apart : state.allocated.Pairwise Apart

section Step

variable {ops} {state next : State count}

/-- Objects below the bump offsets of different regions. -/
theorem apart_of_regionIdx_ne {first second : Region} {left right : RemoteObject}
    (hne : first.regionIdx ≠ second.regionIdx) (hleft : Below first left)
    (hright : Below second right) : Apart left right := by
  obtain ⟨leftOffset, hleftId, -, hleftFits⟩ := hleft
  obtain ⟨rightOffset, hrightId, -, hrightFits⟩ := hright
  have hidx : first.regionIdx.toNat ≠ second.regionIdx.toNat := fun hsame =>
    hne (BitVec.eq_of_toNat_eq hsame)
  unfold Apart
  rw [Region.kSize_eq] at *
  omega

theorem Inv.allocateObject {thread : Fin count} {core : Fin kNumCPUs}
    {objectSize : BitVec 16} {id : ℕ} {region : Region} (hbumps : BumpsRemote ops)
    (hinv : Inv state)
    (hallocate : ops.allocateObject (state.manager.coreLocalFreeRegion core false)
      objectSize.toNat = some (id, region)) :
    Inv ⟨state.manager.setCoreLocalFreeRegion core false region,
      Function.update state.threads thread none, ⟨id, objectSize⟩ :: state.allocated⟩ := by
  have hvalid := RegionOps.isInvalid_of_allocateObject hallocate
  have hsame := ops.identity_allocateObject _ _ _ _ hallocate
  have hidx : region.regionIdx =
      (state.manager.coreLocalFreeRegion core false).regionIdx := congrArg Prod.fst hsame
  have hbuf : region.bufPtr =
      (state.manager.coreLocalFreeRegion core false).bufPtr := congrArg Prod.snd hsame
  have hbefore : live state.manager.regions =
      (state.manager.coreLocalFreeRegion core false) ::ₘ
        (live (state.manager.otherSlots core false) + live state.manager.queued) := by
    rw [hinv.cores.live_regions core false, own_of_full hvalid, add_assoc,
      Multiset.singleton_add]
  have hafter : live (state.manager.setCoreLocalFreeRegion core false region).regions =
      region ::ₘ
        (live (state.manager.otherSlots core false) + live state.manager.queued) := by
    rw [hinv.cores.live_set, own_of_full
      ((RegionManager.isInvalid_congr hsame).trans hvalid), add_assoc,
      Multiset.singleton_add]
  obtain ⟨offset, hid, hfirst, hbump, hfits⟩ := hbumps _ _ _ _
    (hinv.remote _ (hbefore ▸ Multiset.mem_cons_self _ _)) hallocate
  have hindices := hinv.indices
  rw [hbefore, Multiset.map_cons, Multiset.nodup_cons] at hindices
  constructor
  case cores =>
    have hcores : (state.manager.setCoreLocalFreeRegion core false region).HasCores :=
      hinv.cores.setCoreLocalFreeRegion region
    exact hcores
  case remote =>
    intro other hother
    rw [hafter, Multiset.mem_cons] at hother
    rcases hother with rfl | hother
    · rw [hbuf]
      exact hinv.remote _ (hbefore ▸ Multiset.mem_cons_self _ _)
    · exact hinv.remote other (hbefore ▸ Multiset.mem_cons_of_mem hother)
  case indices =>
    rw [hafter, Multiset.map_cons, Multiset.nodup_cons, hidx]
    exact hindices
  case below =>
    intro object hobject
    rw [hafter]
    rcases List.mem_cons.mp hobject with rfl | hobject
    · exact ⟨region, Multiset.mem_cons_self _ _, offset, hidx ▸ hid, hbump, hfits⟩
    · obtain ⟨other, hother, start, hstart, hlow, hslice⟩ := hinv.below object hobject
      rw [hbefore, Multiset.mem_cons] at hother
      rcases hother with rfl | hother
      · refine ⟨region, Multiset.mem_cons_self _ _, start, hidx ▸ hstart, ?_, hslice⟩
        omega
      · exact ⟨other, Multiset.mem_cons_of_mem hother, start, hstart, hlow, hslice⟩
  case apart =>
    refine List.pairwise_cons.mpr ⟨?_, hinv.apart⟩
    intro object hobject
    obtain ⟨other, hother, hbelow⟩ := hinv.below object hobject
    rw [hbefore, Multiset.mem_cons] at hother
    rcases hother with rfl | hother
    · obtain ⟨start, hstart, hlow, -⟩ := hbelow
      right
      dsimp only
      omega
    · have hnew : Below region ⟨id, objectSize⟩ :=
        ⟨offset, hidx ▸ hid, hbump, hfits⟩
      refine apart_of_regionIdx_ne ?_ hnew hbelow
      intro hsame
      apply hindices.1
      rw [← hidx, hsame]
      exact Multiset.mem_map_of_mem _ hother

/-- A refill moves the regions with their bump offsets. -/
theorem Inv.refill {core : Fin kNumCPUs} {success : Bool} {manager : RegionManager}
    (hinv : Inv state)
    (hrefill : state.manager.tryRefillCoreLocalFreeRegion ops core false =
      some (success, manager)) : Inv { state with manager := manager } := by
  have hmoves := hinv.cores.tryRefill hrefill
  constructor
  case cores => exact hmoves.cores
  case remote => exact hmoves.live ▸ hinv.remote
  case indices => exact hmoves.live ▸ hinv.indices
  case below => exact hmoves.live ▸ hinv.below
  case apart => exact hinv.apart

theorem Inv.step {action : Action count} (hbumps : BumpsRemote ops) (hinv : Inv state)
    (hstep : step ops state action = some next) : Inv next := by
  cases action with
  | call thread objectSize =>
      rw [Remote.step] at hstep
      split at hstep
      · cases hstep
        exact ⟨hinv.cores, hinv.remote, hinv.indices, hinv.below, hinv.apart⟩
      · cases hstep
  | allocateObject thread core =>
      rw [Remote.step] at hstep
      split at hstep
      · cases hstep
      split at hstep
      · cases hstep
      · rename_i hallocate
        cases hstep
        exact hinv.allocateObject hbumps hallocate
  | refill thread core =>
      rw [Remote.step] at hstep
      split at hstep
      · cases hstep
      split at hstep
      · cases hstep
      split at hstep
      · cases hstep
      · rename_i hrefill
        cases hstep
        exact hinv.refill hrefill

end Step

/-! ## Runs -/

/-- Every two objects are apart, and writing either back leaves what the other
reads alone. -/
structure Separated (allocated : List RemoteObject) : Prop where
  apart : allocated.Pairwise Apart
  unaffected : allocated.Pairwise fun first second =>
    Unaffected first second ∧ Unaffected second first

variable {ops} {farMemSize : ℕ} {state : State count}

end DynamicSwap.Remote
