import DynamicSwap.Library.Machine
import DynamicSwap.Region.Manager

/-!
# Regions in circulation

Cores refill their slots while the one active GC master picks regions and, at
the end of a round, pushes them to the free list.  Each critical section of
`region_spin_` is one step.  No region is lost or duplicated as long as none of
the indices handed out by the constructor is the invalid one.
-/

namespace DynamicSwap.Circulation

open Library (own held held_append held_cons held_nil own_of_empty own_of_full)
open RegionManager (owned live)

/-- Where the GC master is: outside a round, in the loop of `pick_from_regions`,
or past `pushed` iterations of the loop that pushes the from-regions. -/
inductive GcPhase
  | idle
  | picking (numRegionsPerGcRound : ℕ)
  | pushing (pushed : ℕ)
  deriving DecidableEq

structure State where
  manager : RegionManager
  fromRegions : List Region
  phase : GcPhase

/-- `pick` carries the answers of `is_gcable`. -/
inductive Action
  | refill (core : Fin kNumCPUs) (nt : Bool)
  | beginPick (numRegionsPerGcRound : ℕ)
  | pick (isGcable : Region → Bool)
  | push

variable (ops : RegionOps) (kPickRegionMaxRetryTimes : ℕ)

/-- `none` when the action is not enabled or a `BUG_ON` fires. -/
def step (state : State) : Action → Option State
  | .refill core nt =>
      match state.manager.tryRefillCoreLocalFreeRegion ops core nt with
      | none => none
      | some (_, manager) => some { state with manager := manager }
  | .beginPick numRegionsPerGcRound =>
      if state.phase = .idle then
        some { state with
          fromRegions := []
          phase := .picking numRegionsPerGcRound }
      else none
  | .pick isGcable =>
      match state.phase with
      | .picking numRegionsPerGcRound =>
          match state.manager.popUsedRegion kPickRegionMaxRetryTimes isGcable with
          | (none, manager) =>
              some { state with
                manager := manager
                phase := .pushing 0 }
          | (some region, manager) =>
              some
                { manager := manager
                  fromRegions := state.fromRegions ++ [region]
                  phase :=
                    if (state.fromRegions ++ [region]).length < numRegionsPerGcRound then
                      .picking numRegionsPerGcRound
                    else .pushing 0 }
      | _ => none
  | .push =>
      match state.phase with
      | .pushing pushed =>
          match state.fromRegions[pushed]? with
          | none => some { state with phase := .idle }
          | some region =>
              match state.manager.pushFreeRegion ops region with
              | none => none
              | some manager =>
                  some
                    { manager := manager
                      fromRegions := state.fromRegions.set pushed (ops.moved region)
                      phase := .pushing (pushed + 1) }
      | _ => none

/-- From the manager that the constructor builds. -/
def machine (size : ℕ) (isLocal : Bool) (localCachePtr : ℕ) :
    Library.Machine State Action where
  initial state :=
    RegionManager.construct size isLocal localCachePtr = some state.manager ∧
      state.fromRegions = [] ∧ state.phase = .idle
  step := step ops kPickRegionMaxRetryTimes

namespace State

/-- Every place that can hold a region. -/
def places (state : State) : List Region :=
  state.manager.regions ++ state.fromRegions

/-- Indices of the valid regions, with multiplicity. -/
def indices (state : State) : Multiset ℕ :=
  (live state.places).map fun region => region.regionIdx.toNat

/-- The from-regions that have already been pushed. -/
def pushedPart (state : State) : List Region :=
  match state.phase with
  | .idle => state.fromRegions
  | .picking _ => []
  | .pushing pushed => state.fromRegions.take pushed

end State

/-- Every index that the constructor created is in exactly one place, and no
from-region is some core's region. -/
structure Conserved (size : ℕ) (state : State) : Prop where
  indices : state.indices = Multiset.range (RegionManager.carvedCount size)
  disjoint : ∀ slot ∈ state.manager.coreLocalFreeRegions ++
      state.manager.coreLocalFreeNtRegions, slot.isInvalid = false →
    ∀ region ∈ state.fromRegions, region.isInvalid = false →
      slot.regionIdx ≠ region.regionIdx

/-- What every step keeps. -/
structure Inv (total : Multiset (BitVec 32 × Option ℕ)) (state : State) : Prop where
  cores : state.manager.HasCores
  conserved : owned state.places = total
  pushed : ∀ region ∈ state.pushedPart, region.isInvalid = true

variable {ops kPickRegionMaxRetryTimes}

section Step

variable {total : Multiset (BitVec 32 × Option ℕ)} {state next : State}

/-- A pushed region leaves an invalid value behind. -/
theorem owned_set_moved {regions : List Region} {index : ℕ} {region : Region}
    (hregion : regions[index]? = some region) :
    owned [region] + owned (regions.set index (ops.moved region)) = owned regions := by
  obtain ⟨hindex, rfl⟩ := List.getElem?_eq_some_iff.mp hregion
  have hmoved : owned [ops.moved regions[index]] = 0 :=
    RegionManager.owned_of_all_invalid (by simp [ops.isInvalid_moved])
  rw [RegionManager.owned_of_perm (List.set_perm_cons_eraseIdx hindex _),
    RegionManager.owned_cons (ops.moved _) (regions.eraseIdx index), hmoved, zero_add,
    ← RegionManager.owned_cons]
  exact RegionManager.owned_of_perm (List.getElem_cons_eraseIdx_perm hindex)

/-- Pushing moves the boundary of the part that is already invalid. -/
theorem take_set_moved {regions : List Region} {index : ℕ} {region : Region}
    (hpushed : ∀ region ∈ regions.take index, region.isInvalid = true) :
    ∀ other ∈ (regions.set index (ops.moved region)).take (index + 1),
      other.isInvalid = true := by
  intro other hother
  obtain ⟨position, hposition, rfl⟩ := List.mem_take_iff_getElem.mp hother
  rw [List.getElem_set]
  split
  · exact ops.isInvalid_moved region
  · apply hpushed
    apply List.mem_take_iff_getElem.mpr
    rw [List.length_set] at hposition
    exact ⟨position, by omega, rfl⟩

/-- The places keep their regions when the manager does. -/
theorem Inv.setManager {manager : RegionManager} (hinv : Inv total state)
    (hkeeps : state.manager.Keeps manager) :
    Inv total { state with manager := manager } := by
  constructor
  case cores => exact hkeeps.cores
  case conserved =>
    calc
      owned (manager.regions ++ state.fromRegions) =
          owned state.manager.regions + owned state.fromRegions := by
        rw [RegionManager.owned_append, hkeeps.owned]
      _ = owned state.places := (RegionManager.owned_append _ _).symm
      _ = total := hinv.conserved
  case pushed => exact hinv.pushed

theorem Inv.step {action : Action} (hinv : Inv total state)
    (hstep : step ops kPickRegionMaxRetryTimes state action = some next) :
    Inv total next := by
  have howned := hinv.conserved
  rw [State.places, RegionManager.owned_append] at howned
  cases action with
  | refill core nt =>
      rw [Circulation.step] at hstep
      split at hstep
      · cases hstep
      · rename_i success manager hrefill
        cases hstep
        exact hinv.setManager (hinv.cores.tryRefill hrefill).keeps
  | beginPick numRegionsPerGcRound =>
      rw [Circulation.step, Option.ite_none_right_eq_some, Option.some.injEq] at hstep
      obtain ⟨hidle, rfl⟩ := hstep
      refine ⟨hinv.cores, ?_, by simp [State.pushedPart]⟩
      have hpushed := hinv.pushed
      rw [State.pushedPart, hidle] at hpushed
      rw [State.places, List.append_nil, ← howned, RegionManager.owned_of_all_invalid hpushed,
        add_zero]
  | pick isGcable =>
      rw [Circulation.step] at hstep
      split at hstep
      · rename_i numRegionsPerGcRound hphase
        have hcores := (hinv.cores.popUsedRegion kPickRegionMaxRetryTimes isGcable).1
        have hbalance :=
          hinv.cores.owned_popUsedRegion kPickRegionMaxRetryTimes isGcable
        split at hstep
        · rename_i manager hpicked
          rw [hpicked] at hcores hbalance
          cases hstep
          refine ⟨hcores, ?_, by simp [State.pushedPart]⟩
          calc
            owned (manager.regions ++ state.fromRegions) =
                owned state.manager.regions + owned state.fromRegions := by
              rw [RegionManager.owned_append, ← hbalance]
              exact congrArg (· + owned state.fromRegions) (zero_add _).symm
            _ = total := howned
        · rename_i region manager hpicked
          rw [hpicked] at hcores hbalance
          cases hstep
          refine ⟨hcores, ?_, ?_⟩
          · calc
              owned (manager.regions ++ (state.fromRegions ++ [region])) =
                  owned [region] + owned manager.regions + owned state.fromRegions := by
                rw [RegionManager.owned_append, RegionManager.owned_append]
                ac_rfl
              _ = owned state.manager.regions + owned state.fromRegions :=
                congrArg (· + owned state.fromRegions) hbalance
              _ = total := howned
          · by_cases hmore :
                (state.fromRegions ++ [region]).length < numRegionsPerGcRound
            · simp only [State.pushedPart, if_pos hmore]
              simp
            · simp only [State.pushedPart, if_neg hmore]
              simp
      · cases hstep
  | push =>
      rw [Circulation.step] at hstep
      split at hstep
      · rename_i pushed hphase
        have hpushed := hinv.pushed
        rw [State.pushedPart, hphase] at hpushed
        dsimp only at hpushed
        split at hstep
        · rename_i hend
          cases hstep
          refine ⟨hinv.cores, hinv.conserved, ?_⟩
          rwa [List.take_of_length_le (List.getElem?_eq_none_iff.mp hend)] at hpushed
        · rename_i region hregion
          split at hstep
          · cases hstep
          · rename_i manager hpush
            cases hstep
            obtain ⟨hcores, hbalance⟩ := hinv.cores.pushFreeRegion hpush
            refine ⟨hcores, ?_, take_set_moved hpushed⟩
            have hset : owned [region] +
                owned (state.fromRegions.set pushed (ops.moved region)) =
                  owned state.fromRegions := owned_set_moved hregion
            calc
              owned (manager.regions ++ state.fromRegions.set pushed (ops.moved region)) =
                  owned [region] + owned state.manager.regions +
                    owned (state.fromRegions.set pushed (ops.moved region)) := by
                rw [RegionManager.owned_append, hbalance]
              _ = owned state.manager.regions + owned state.fromRegions := by
                rw [← hset]
                ac_rfl
              _ = total := howned
      · cases hstep

end Step

/-! ## From the constructor -/

section Construct

variable {size localCachePtr : ℕ} {isLocal : Bool} {manager : RegionManager}
variable {state : State}

theorem isInvalid_carved (isLocal : Bool) (localCachePtr position : ℕ) :
    (RegionManager.carved isLocal localCachePtr 0 position).isInvalid = true ↔
      position % 2 ^ 32 = 2 ^ 32 - 1 := by
  rw [Region.isInvalid, beq_iff_eq, ← BitVec.toNat_inj,
    RegionManager.toNat_regionIdx_carved]
  rfl

theorem hasCores_construct
    (hconstruct : RegionManager.construct size isLocal localCachePtr = some manager) :
    manager.HasCores := by
  obtain ⟨-, freeRegions, last, -, rfl⟩ := RegionManager.construct_eq_some hconstruct
  have hlength := RegionManager.length_carveCores isLocal localCachePtr
    forAllSocket0Cores ⟨0, fun _ => {}⟩
  exact ⟨hlength.1, hlength.2⟩

theorem Inv.of_initial
    (hinitial : (machine ops kPickRegionMaxRetryTimes size isLocal
      localCachePtr).initial state) :
    Inv (owned state.manager.regions) state := by
  obtain ⟨hconstruct, hfrom, hidle⟩ := hinitial
  constructor
  case cores => exact hasCores_construct hconstruct
  case conserved => rw [State.places, hfrom, List.append_nil]
  case pushed => simp [State.pushedPart, hidle, hfrom]

theorem State.indices_eq (state : State) :
    state.indices = (owned state.places).map fun identity => identity.1.toNat := by
  rw [State.indices, owned, Multiset.map_map]
  rfl

theorem inv_of_reachable
    (hconstruct : RegionManager.construct size isLocal localCachePtr = some manager)
    (hreachable : (machine ops kPickRegionMaxRetryTimes size isLocal
      localCachePtr).Reachable state) : Inv (owned manager.regions) state := by
  refine hreachable.invariant (Inv (owned manager.regions)) ?_ ?_
  · intro start hinitial
    have hstart := Inv.of_initial hinitial
    rwa [Option.some.inj (hinitial.1.symm.trans hconstruct)] at hstart
  · exact fun hinv _ hstep => hinv.step hstep

/-- Every reachable state holds the indices that the constructor created. -/
theorem indices_of_reachable
    (hconstruct : RegionManager.construct size isLocal localCachePtr = some manager)
    (hreachable : (machine ops kPickRegionMaxRetryTimes size isLocal
      localCachePtr).Reachable state) :
    state.indices = (live manager.regions).map fun region => region.regionIdx.toNat := by
  rw [State.indices_eq, (inv_of_reachable hconstruct hreachable).conserved, owned,
    Multiset.map_map]
  rfl

theorem isInvalid_construct_of_lt
    (hconstruct : RegionManager.construct size isLocal localCachePtr = some manager)
    (hfits : RegionManager.carvedCount size < 2 ^ 32) {region : Region}
    (hregion : region ∈ manager.regions) : region.isInvalid = false := by
  obtain ⟨position, hposition, rfl⟩ := List.mem_map.mp
    ((RegionManager.regions_construct hconstruct).mem_iff.mp hregion)
  have hlt := List.mem_range.mp hposition
  rw [← Bool.not_eq_true, isInvalid_carved]
  omega

theorem live_construct_of_lt
    (hconstruct : RegionManager.construct size isLocal localCachePtr = some manager)
    (hfits : RegionManager.carvedCount size < 2 ^ 32) :
    (live manager.regions).map (fun region => region.regionIdx.toNat) =
      Multiset.range (RegionManager.carvedCount size) := by
  have hindices := RegionManager.indices_construct hconstruct (by omega)
  rw [live, Library.held_of_all_full fun region hregion =>
    isInvalid_construct_of_lt hconstruct hfits hregion]
  exact Multiset.coe_eq_coe.mpr hindices

/-- Places with distinct indices: what one part holds, no other part holds. -/
theorem regionIdx_ne_of_nodup {first second : List Region}
    (hnodup : ((live (first ++ second)).map Region.regionIdx).Nodup)
    {slot region : Region} (hslot : slot ∈ first) (hslotValid : slot.isInvalid = false)
    (hregion : region ∈ second) (hregionValid : region.isInvalid = false) :
    slot.regionIdx ≠ region.regionIdx := by
  rw [live, held_append, Multiset.map_add, Multiset.nodup_add] at hnodup
  intro hsame
  have hfirst := Multiset.mem_map_of_mem Region.regionIdx
    (Library.mem_held.mpr ⟨hslot, hslotValid⟩)
  have hsecond := Multiset.mem_map_of_mem Region.regionIdx
    (Library.mem_held.mpr ⟨hregion, hregionValid⟩)
  rw [hsame] at hfirst
  exact Multiset.disjoint_left.mp hnodup.2.2 hfirst hsecond

/-- Regions are conserved over every run exactly when the counter of the
constructor stays below the invalid index. -/
theorem conserved_iff
    (hconstruct : RegionManager.construct size isLocal localCachePtr = some manager) :
    (∀ state, (machine ops kPickRegionMaxRetryTimes size isLocal
        localCachePtr).Reachable state → Conserved size state) ↔
      RegionManager.carvedCount size < 2 ^ 32 := by
  constructor
  · intro hclaim
    by_contra hwrap
    have hindices := (hclaim ⟨manager, [], .idle⟩
      (.initial ⟨hconstruct, rfl, rfl⟩)).indices
    have hmem : 2 ^ 32 - 1 ∈ Multiset.range (RegionManager.carvedCount size) :=
      Multiset.mem_range.mpr (by omega)
    rw [← hindices, State.indices, Multiset.mem_map] at hmem
    obtain ⟨region, hlive, hidx⟩ := hmem
    have hvalid := (Library.mem_held.mp hlive).2
    have hinvalid : region.regionIdx = Region.kInvalidIdx :=
      BitVec.eq_of_toNat_eq hidx
    rw [Region.isInvalid, hinvalid] at hvalid
    exact absurd hvalid (by decide)
  · intro hfits state hreachable
    have hindices : state.indices =
        Multiset.range (RegionManager.carvedCount size) :=
      (indices_of_reachable hconstruct hreachable).trans
        (live_construct_of_lt hconstruct hfits)
    constructor
    case indices => exact hindices
    case disjoint =>
      intro slot hslot hslotValid region hregion hregionValid
      have hnodup : ((live state.places).map Region.regionIdx).Nodup := by
        apply Multiset.Nodup.of_map BitVec.toNat
        rw [Multiset.map_map]
        have hrange : state.indices.Nodup := hindices ▸ Multiset.nodup_range _
        exact hrange
      refine regionIdx_ne_of_nodup hnodup ?_ hslotValid hregion hregionValid
      rcases List.mem_append.mp hslot with hslot | hslot <;>
        simp [RegionManager.regions, hslot]

/-- The shipped test's cache conserves its 52 regions. -/
theorem conserved_16384 :
    ∃ manager, RegionManager.construct 16384 true 0 = some manager ∧
      ∀ state, (machine RegionOps.bump 10 16384 true 0).Reachable state →
        Conserved 16384 state := by
  have hcount : RegionManager.freeRegionsCount 16384 = 16 := by decide +kernel
  obtain ⟨manager, hmanager⟩ := RegionManager.exists_construct true 0
    (show 2 * kNumSocket1CPUs < RegionManager.freeRegionsCount 16384 by
      rw [hcount]
      decide)
    (by
      rw [hcount]
      norm_num)
  have hfits : RegionManager.carvedCount 16384 < 2 ^ 32 := by decide +kernel
  exact ⟨manager, hmanager, (conserved_iff hmanager).mpr hfits⟩

/-- A cache of 4 TiB: the counter hands out the invalid index and wraps. -/
theorem not_forall_conserved :
    ¬ ∀ (ops : RegionOps) (kPickRegionMaxRetryTimes size localCachePtr : ℕ)
        (isLocal : Bool) (state : State),
      (machine ops kPickRegionMaxRetryTimes size isLocal
        localCachePtr).Reachable state → Conserved size state := by
  intro hclaim
  have hcount : RegionManager.freeRegionsCount (2 ^ 42) = 2 ^ 32 := by decide +kernel
  obtain ⟨manager, hmanager⟩ := RegionManager.exists_construct true 0
    (show 2 * kNumSocket1CPUs < RegionManager.freeRegionsCount (2 ^ 42) by
      rw [hcount]
      decide)
    (by
      rw [hcount]
      norm_num)
  have hindices := (hclaim RegionOps.bump 10 (2 ^ 42) 0 true ⟨manager, [], .idle⟩
    (.initial ⟨hmanager, rfl, rfl⟩)).indices
  have hwrap : 2 ^ 32 < RegionManager.carvedCount (2 ^ 42) :=
    RegionManager.two_pow_lt_carvedCount hcount.ge
  have hmem : 2 ^ 32 ∈ Multiset.range (RegionManager.carvedCount (2 ^ 42)) :=
    Multiset.mem_range.mpr hwrap
  rw [← hindices, State.indices, Multiset.mem_map] at hmem
  obtain ⟨region, -, hidx⟩ := hmem
  have hlt := region.regionIdx.isLt
  omega

end Construct

end DynamicSwap.Circulation
