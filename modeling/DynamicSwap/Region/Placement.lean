import DynamicSwap.Library.Arenas
import DynamicSwap.Region.Allocation
import DynamicSwap.Region.Circulation

/-!
# Where objects lie in the cache

A region is filled from its offset on and starts over when it is pushed to the
free list.  Wherever regions go, the objects of the cache lie below their
offsets; what an allocation returns is therefore apart from all of them, as long
as a region is pushed only when no object is left in it.
-/

namespace DynamicSwap.Placement

open Library (Extent own held_append own_of_empty own_of_full)
open RegionManager (owned live)

/-- `allocate_object` fills a region from its offset on. -/
def Bumps (ops : RegionOps) : Prop :=
  ∀ region objectSize addr next,
    ops.allocateObject region objectSize = some (addr, next) →
      region.base + region.firstFreeByteIdx ≤ addr ∧
        addr + objectSize ≤ region.base + next.firstFreeByteIdx ∧
        addr + objectSize ≤ region.base + Region.kSize

/-- Every extent lies in one of the regions, below its offset. -/
abbrev Placed (regions : Multiset Region) (extents : Set Extent) : Prop :=
  Library.Arenas.Placed Region.base Region.firstFreeByteIdx Region.kSize regions extents

/-- The buffers of the regions do not meet. -/
abbrev Tiled (regions : Multiset Region) : Prop :=
  Library.Arenas.Tiled Region.kSize (regions.map Region.base)

/-- The from-region that the next `push` puts on the free list. -/
def pushing (state : Circulation.State) : Option Region :=
  match state.phase with
  | .pushing pushed => state.fromRegions[pushed]?
  | _ => none

variable {ops : RegionOps} {manager next : RegionManager} {core : Fin kNumCPUs} {nt : Bool}
variable {objectSize : ℕ} {result : Option ℕ} {extents : Set Extent}

/-! ## One allocation -/

/-- One region has grown by an object at the address. -/
def Grows (ops : RegionOps) (objectSize addr : ℕ) (before after : Multiset Region) : Prop :=
  ∃ old new rest, ops.allocateObject old objectSize = some (addr, new) ∧
    before = old ::ₘ rest ∧ after = new ::ₘ rest

theorem grows_allocateObject {addr : ℕ} {region : Region} (hcores : manager.HasCores)
    (hallocate : ops.allocateObject (manager.coreLocalFreeRegion core nt) objectSize =
      some (addr, region)) :
    Grows ops objectSize addr (live manager.regions)
      (live (manager.setCoreLocalFreeRegion core nt region).regions) := by
  have hvalid := RegionOps.isInvalid_of_allocateObject hallocate
  have hsame := ops.identity_allocateObject _ _ _ _ hallocate
  refine ⟨_, region, live (manager.otherSlots core nt) + live manager.queued, hallocate,
    ?_, ?_⟩
  · rw [hcores.live_regions core nt, own_of_full hvalid, add_assoc, Multiset.singleton_add]
  · rw [hcores.live_set, own_of_full ((RegionManager.isInvalid_congr hsame).trans hvalid),
      add_assoc, Multiset.singleton_add]

/-- An allocation moves regions and, when it succeeds, grows one of them. -/
theorem retryAllocateLocal_cases {retries : ℕ} (hcores : manager.HasCores)
    (hretry : manager.retryAllocateLocal ops core nt objectSize retries =
      some (result, next)) :
    (result = none ∧ live next.regions = live manager.regions) ∨
      ∃ addr, result = some addr ∧
        Grows ops objectSize addr (live manager.regions) (live next.regions) := by
  induction retries using Nat.strong_induction_on generalizing manager with
  | _ retries ih =>
      rcases RegionManager.retryAllocateLocal_eq_some hretry with
        ⟨addr, region, hallocate, rfl, rfl⟩ | ⟨success, refilled, hrefill, hrest⟩
      · exact .inr ⟨addr, rfl, grows_allocateObject hcores hallocate⟩
      · have hmoves := hcores.tryRefill hrefill
        rcases hrest with ⟨rfl, rfl⟩ | ⟨fewer, hfewer, hretry⟩
        · exact .inl ⟨rfl, hmoves.live⟩
        · have hlater := ih fewer (by omega) hmoves.cores hretry
          rwa [hmoves.live] at hlater

theorem Grows.add {addr : ℕ} {before after others : Multiset Region}
    (hgrows : Grows ops objectSize addr before after) :
    Grows ops objectSize addr (before + others) (after + others) := by
  obtain ⟨old, new, rest, hallocate, rfl, rfl⟩ := hgrows
  exact ⟨old, new, rest + others, hallocate, Multiset.cons_add .., Multiset.cons_add ..⟩

/-- The object is apart from the others, and lies in its region like them. -/
theorem Grows.placed {addr : ℕ} {before after : Multiset Region}
    (hgrows : Grows ops objectSize addr before after) (hbumps : Bumps ops)
    (htiled : Tiled before) (hplaced : Placed before extents) :
    Placed after (insert ⟨addr, objectSize⟩ extents) ∧
      ∀ other ∈ extents, Extent.Apart ⟨addr, objectSize⟩ other := by
  obtain ⟨old, new, rest, hallocate, rfl, rfl⟩ := hgrows
  obtain ⟨hstart, hend, hfits⟩ := hbumps _ _ _ _ hallocate
  have hbase := Region.base_congr (ops.identity_allocateObject _ _ _ _ hallocate)
  exact hplaced.bump htiled hbase hstart hend hfits

/-! ## Regions in circulation -/

section Circulation

open Circulation (State Action Inv)

variable {total : Multiset (BitVec 32 × Option ℕ)} {state after : State}
variable {kPickRegionMaxRetryTimes : ℕ}

theorem live_places (state : State) :
    live state.places = live state.manager.regions + live state.fromRegions :=
  held_append _ _

theorem live_fromRegions {regions : List Region} {index : ℕ} {region : Region}
    (hregion : regions[index]? = some region) :
    live regions = own Region.isInvalid region + live (regions.eraseIdx index) ∧
      live (regions.set index (ops.moved region)) = live (regions.eraseIdx index) := by
  obtain ⟨hindex, rfl⟩ := List.getElem?_eq_some_iff.mp hregion
  constructor
  · rw [live, ← Library.held_of_perm (List.getElem_cons_eraseIdx_perm hindex),
      Library.held_cons]
  · rw [live, Library.held_of_perm (List.set_perm_cons_eraseIdx hindex _), Library.held_cons,
      own_of_empty (ops.isInvalid_moved _), zero_add]

theorem live_pushFreeRegion {region : Region}
    (hpush : manager.pushFreeRegion ops region = some next) :
    live next.regions = own Region.isInvalid (ops.reset region) + live manager.regions := by
  obtain ⟨-, rfl⟩ := RegionManager.pushFreeRegion_eq_some hpush
  simp only [RegionManager.regions, live, held_append, Library.held_cons, Library.held_nil,
    add_zero]
  ac_rfl

/-- Circulation moves regions, but for the pushed one, which starts over. -/
theorem live_step {action : Action} (hinv : Inv total state)
    (hstep : Circulation.step ops kPickRegionMaxRetryTimes state action = some after) :
    live after.places = live state.places ∨
      ∃ region rest, action = .push ∧ pushing state = some region ∧
        live state.places = region ::ₘ rest ∧
        live after.places = ops.reset region ::ₘ rest := by
  rw [live_places, live_places]
  cases action with
  | refill core nt =>
      rw [Circulation.step] at hstep
      split at hstep
      · cases hstep
      · rename_i success manager hrefill
        cases hstep
        left
        rw [(hinv.cores.tryRefill hrefill).live]
  | beginPick numRegionsPerGcRound =>
      rw [Circulation.step, Option.ite_none_right_eq_some, Option.some.injEq] at hstep
      obtain ⟨hidle, rfl⟩ := hstep
      have hpushed := hinv.pushed
      rw [Circulation.State.pushedPart, hidle] at hpushed
      have hnone : live state.fromRegions = 0 := Library.held_of_all_empty hpushed
      left
      rw [hnone]
      rfl
  | pick isGcable =>
      rw [Circulation.step] at hstep
      split at hstep
      · have hbalance := (hinv.cores.popUsedRegion kPickRegionMaxRetryTimes isGcable).2
        left
        split at hstep
        · rename_i manager hpicked
          rw [hpicked] at hbalance
          cases hstep
          rw [← hbalance]
          exact congrArg (· + live state.fromRegions) (zero_add _).symm
        · rename_i region manager hpicked
          rw [hpicked] at hbalance
          cases hstep
          calc
            live manager.regions + live (state.fromRegions ++ [region]) =
                live [region] + live manager.regions + live state.fromRegions := by
              simp only [live, held_append]
              ac_rfl
            _ = live state.manager.regions + live state.fromRegions :=
              congrArg (· + live state.fromRegions) hbalance
      · cases hstep
  | push =>
      rw [Circulation.step] at hstep
      split at hstep
      · rename_i pushed hphase
        split at hstep
        · cases hstep
          exact .inl rfl
        · rename_i region hregion
          split at hstep
          · cases hstep
          · rename_i manager hpush
            cases hstep
            obtain ⟨hold, hnew⟩ := live_fromRegions hregion
            have hmanager := live_pushFreeRegion hpush
            cases hinvalid : region.isInvalid with
            | true =>
                have hreset : (ops.reset region).isInvalid = true :=
                  (RegionManager.isInvalid_congr (ops.identity_reset region)).trans hinvalid
                left
                rw [hmanager, hold, hnew, own_of_empty hinvalid, own_of_empty hreset]
                ac_rfl
            | false =>
                have hreset : (ops.reset region).isInvalid = false :=
                  (RegionManager.isInvalid_congr (ops.identity_reset region)).trans hinvalid
                right
                refine ⟨region,
                  live state.manager.regions + live (state.fromRegions.eraseIdx pushed), rfl,
                  ?_, ?_, ?_⟩
                · rw [pushing, hphase]
                  exact hregion
                · rw [hold, own_of_full hinvalid, ← Multiset.singleton_add]
                  ac_rfl
                · rw [hmanager, hnew, own_of_full hreset, ← Multiset.singleton_add]
                  ac_rfl
      · cases hstep

/-- The regions that the constructor carves out of the cache follow each other. -/
theorem base_carved {localCachePtr position : ℕ} (hposition : position < 2 ^ 32) :
    (RegionManager.carved true localCachePtr 0 position).base =
      localCachePtr + position * Region.kSize := by
  have hidx := RegionManager.toNat_regionIdx_carved true localCachePtr position
  rw [Nat.mod_eq_of_lt hposition] at hidx
  rw [Region.base, RegionManager.carved, RegionManager.newRegionFn, if_pos rfl,
    Option.getD_some]
  exact congrArg (fun index => localCachePtr + index * Region.kSize) hidx

theorem map_base_live {regions : List Region} :
    (live regions).map Region.base =
      (owned regions).map fun identity => identity.2.getD (identity.1.toNat * Region.kSize) := by
  rw [owned, Multiset.map_map]
  rfl

theorem map_base_construct {size localCachePtr : ℕ}
    (hconstruct : RegionManager.construct size true localCachePtr = some manager)
    (hfits : RegionManager.carvedCount size < 2 ^ 32) :
    (live manager.regions).map Region.base =
      (Multiset.range (RegionManager.carvedCount size)).map fun position =>
        localCachePtr + position * Region.kSize := by
  rw [live, Library.held_of_all_full fun region hregion =>
    Circulation.isInvalid_construct_of_lt hconstruct hfits hregion]
  have hperm := (RegionManager.regions_construct hconstruct).map Region.base
  rw [List.map_map] at hperm
  have hbases : (List.range (RegionManager.carvedCount size)).map
      (Region.base ∘ RegionManager.carved true localCachePtr 0) =
        (List.range (RegionManager.carvedCount size)).map fun position =>
          localCachePtr + position * Region.kSize := by
    apply List.map_congr_left
    intro position hposition
    exact base_carved ((List.mem_range.mp hposition).trans hfits)
  rw [hbases] at hperm
  exact Multiset.coe_eq_coe.mpr hperm

/-- Wherever the regions of the constructor are, their bases are those it chose. -/
theorem map_base_places {size localCachePtr : ℕ}
    (hconstruct : RegionManager.construct size true localCachePtr = some manager)
    (hfits : RegionManager.carvedCount size < 2 ^ 32)
    (hinv : Inv (owned manager.regions) state) :
    (live state.places).map Region.base =
      (Multiset.range (RegionManager.carvedCount size)).map fun position =>
        localCachePtr + position * Region.kSize := by
  rw [map_base_live, hinv.conserved, ← map_base_live, map_base_construct hconstruct hfits]

/-- Every region lies in the cache. -/
theorem base_le {size localCachePtr : ℕ} {region : Region}
    (hconstruct : RegionManager.construct size true localCachePtr = some manager)
    (hfits : RegionManager.carvedCount size < 2 ^ 32)
    (hinv : Inv (owned manager.regions) state) (hregion : region ∈ live state.places) :
    localCachePtr ≤ region.base ∧ region.base + Region.kSize ≤
      localCachePtr + RegionManager.carvedCount size * Region.kSize := by
  have hbase := Multiset.mem_map_of_mem Region.base hregion
  rw [map_base_places hconstruct hfits hinv] at hbase
  obtain ⟨position, hposition, hbase⟩ := Multiset.mem_map.mp hbase
  have hlt := Multiset.mem_range.mp hposition
  have hle := Nat.mul_le_mul_right Region.kSize (Nat.succ_le_of_lt hlt)
  rw [Nat.succ_mul] at hle
  omega

/-- Every region of the cache is local. -/
theorem bufPtr_eq {size localCachePtr : ℕ} {region : Region}
    (hconstruct : RegionManager.construct size true localCachePtr = some manager)
    (hinv : Inv (owned manager.regions) state) (hregion : region ∈ live state.places) :
    region.bufPtr = some region.base := by
  have hidentity := Multiset.mem_map_of_mem Region.identity hregion
  have howned : region.identity ∈ owned state.places := hidentity
  rw [hinv.conserved, RegionManager.mem_owned] at howned
  obtain ⟨first, hfirst, -, hsame⟩ := howned
  obtain ⟨position, -, rfl⟩ := List.mem_map.mp
    ((RegionManager.regions_construct hconstruct).mem_iff.mp hfirst)
  have hbufPtr : _ = region.bufPtr := congrArg Prod.snd hsame
  rw [Region.base, ← hbufPtr]
  rfl

theorem tiled_places {size localCachePtr : ℕ}
    (hconstruct : RegionManager.construct size true localCachePtr = some manager)
    (hfits : RegionManager.carvedCount size < 2 ^ 32)
    (hinv : Inv (owned manager.regions) state) : Tiled (live state.places) := by
  rw [Tiled, map_base_places hconstruct hfits hinv]
  exact Library.Arenas.tiled_range _ _ (by decide)

/-- An allocation while regions circulate: what it returns lies in a region, apart
from all that has been placed. -/
theorem placed_allocate {size localCachePtr : ℕ} {constructed : RegionManager}
    (hbumps : Bumps ops)
    (hconstruct : RegionManager.construct size true localCachePtr = some constructed)
    (hfits : RegionManager.carvedCount size < 2 ^ 32)
    (hinv : Inv (owned constructed.regions) state)
    (hplaced : Placed (live state.places) extents)
    (hallocate : state.manager.allocateLocalObjectNb ops core nt objectSize =
      some (result, next)) :
    (result = none ∧ Placed (live { state with manager := next }.places) extents) ∨
      ∃ addr, result = some addr ∧
        Placed (live { state with manager := next }.places)
          (insert ⟨addr, objectSize⟩ extents) ∧
        ∀ other ∈ extents, Extent.Apart ⟨addr, objectSize⟩ other := by
  have htiled := tiled_places hconstruct hfits hinv
  have hplaces := live_places { state with manager := next }
  have hbefore := live_places state
  rw [hbefore] at hplaced htiled
  rw [hplaces]
  rcases retryAllocateLocal_cases hinv.cores hallocate with ⟨rfl, hsame⟩ | ⟨addr, rfl, hgrows⟩
  · left
    dsimp only
    rw [hsame]
    exact ⟨rfl, hplaced⟩
  · exact .inr ⟨addr, rfl, hgrows.add.placed hbumps htiled hplaced⟩

end Circulation

theorem bumps_bump : Bumps RegionOps.bump := by
  intro region objectSize addr next hallocate
  simp only [RegionOps.bump, Option.ite_none_left_eq_some, Option.some.injEq,
    Prod.mk.injEq] at hallocate
  obtain ⟨hfits, haddr, rfl⟩ := hallocate
  rw [Region.base]
  dsimp only
  omega

end DynamicSwap.Placement
