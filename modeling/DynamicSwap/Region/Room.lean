import DynamicSwap.Region.Circulation

/-!
# Room in the region queues

Each queue has the capacity that the constructor computed from the size, and a
push that does not fit aborts the process.  Whether a push can fail depends on
how many valid regions circulate: all of them can meet in the free list at the
end of a round.
-/

namespace DynamicSwap

namespace RegionManager

open Library (own held held_append held_cons held_nil own_of_empty own_of_full)

variable {ops : RegionOps} {manager next : RegionManager} {core : Fin kNumCPUs} {nt : Bool}

/-- The regions of both used queues, in the order in which they are tried. -/
def filled (manager : RegionManager) : List Region :=
  manager.ntUsedRegions ++ manager.usedRegions

/-- What a refill does to the queues: the slot's region goes to a used queue
and the front of the free list leaves. -/
structure Refilled (core : Fin kNumCPUs) (nt : Bool) (manager next : RegionManager) :
    Prop where
  capacity : next.capacity = manager.capacity
  freeRegions : next.freeRegions = manager.freeRegions.tail
  filled : next.filled.Perm
    (manager.filled ++ [manager.coreLocalFreeRegion core nt].filter fun region =>
      !region.isInvalid)
  slots : ∀ otherCore otherNt, manager.freeRegions = [] →
    (manager.coreLocalFreeRegion otherCore otherNt).isInvalid = true ∨
        otherCore = core ∧ otherNt = nt →
      (next.coreLocalFreeRegion otherCore otherNt).isInvalid = true

theorem coreLocalFreeRegion_set_of_ne {otherCore : Fin kNumCPUs} {otherNt : Bool}
    (region : Region) (hother : ¬ (otherCore = core ∧ otherNt = nt)) :
    (manager.setCoreLocalFreeRegion core nt region).coreLocalFreeRegion
        otherCore otherNt = manager.coreLocalFreeRegion otherCore otherNt := by
  have hne : otherNt = nt → (core : ℕ) ≠ otherCore := fun hnt hsame =>
    hother ⟨(Fin.ext hsame).symm, hnt⟩
  by_cases hnt : otherNt = nt
  · subst hnt
    cases otherNt <;>
      simp [RegionManager.setCoreLocalFreeRegion, coreLocalFreeRegion,
        List.getElem?_set_ne (hne rfl)]
  · cases nt <;> cases otherNt <;>
      simp_all [RegionManager.setCoreLocalFreeRegion, coreLocalFreeRegion]

@[simp]
theorem filled_setCoreLocalFreeRegion (region : Region) :
    (manager.setCoreLocalFreeRegion core nt region).filled = manager.filled := by
  cases nt <;> rfl

@[simp]
theorem capacity_setCoreLocalFreeRegion (region : Region) :
    (manager.setCoreLocalFreeRegion core nt region).capacity = manager.capacity := by
  cases nt <;> rfl

theorem HasCores.slots_set_moved {otherCore : Fin kNumCPUs} {otherNt : Bool}
    (hcores : manager.HasCores) (region : Region)
    (hother : (manager.coreLocalFreeRegion otherCore otherNt).isInvalid = true ∨
      otherCore = core ∧ otherNt = nt) :
    ((manager.setCoreLocalFreeRegion core nt (ops.moved region)).coreLocalFreeRegion
      otherCore otherNt).isInvalid = true := by
  by_cases hsame : otherCore = core ∧ otherNt = nt
  · rw [hsame.1, hsame.2, hcores.coreLocalFreeRegion_set, ops.isInvalid_moved]
  · rw [coreLocalFreeRegion_set_of_ne _ hsame]
    exact hother.resolve_right hsame

/-- The first half of a refill adds the slot's region to a used queue. -/
theorem HasCores.filled_pushFullRegion (hcores : manager.HasCores)
    (hpush : manager.pushFullRegion ops core nt = some next) :
    next.capacity = manager.capacity ∧
      next.filled.Perm
        (manager.filled ++ [manager.coreLocalFreeRegion core nt].filter fun region =>
          !region.isInvalid) ∧
      ∀ otherCore otherNt,
        (manager.coreLocalFreeRegion otherCore otherNt).isInvalid = true ∨
            otherCore = core ∧ otherNt = nt →
          (next.coreLocalFreeRegion otherCore otherNt).isInvalid = true := by
  simp only [RegionManager.pushFullRegion] at hpush
  split at hpush
  · rename_i hinvalid
    cases hpush
    refine ⟨rfl, by simp [hinvalid], ?_⟩
    rintro otherCore otherNt (hother | ⟨rfl, rfl⟩)
    · exact hother
    · exact hinvalid
  rename_i hvalid
  rw [Bool.not_eq_true] at hvalid
  split at hpush
  all_goals
    split at hpush
    · cases hpush
    rename_i hqueue
    cases hpush
    refine ⟨capacity_setCoreLocalFreeRegion _, ?_, ?_⟩
    · rw [filled_setCoreLocalFreeRegion]
      simp only [filled, (pushBack_eq_some hqueue).2, hvalid, List.append_assoc,
        List.filter_cons, Bool.not_false, if_true, List.filter_nil]
      grind
    · intro otherCore otherNt hother
      apply HasCores.slots_set_moved
      · exact ⟨hcores.regions, hcores.ntRegions⟩
      · exact hother

/-- The second half removes the front of the free list. -/
theorem queues_popFreeRegion (ops : RegionOps)
    (hinvalid : (manager.coreLocalFreeRegion core nt).isInvalid = true) :
    (manager.popFreeRegion ops core nt).2.capacity = manager.capacity ∧
      (manager.popFreeRegion ops core nt).2.freeRegions = manager.freeRegions.tail ∧
      (manager.popFreeRegion ops core nt).2.filled = manager.filled ∧
      (manager.freeRegions = [] → ∀ otherCore otherNt,
        (manager.popFreeRegion ops core nt).2.coreLocalFreeRegion otherCore otherNt =
          manager.coreLocalFreeRegion otherCore otherNt) := by
  rw [RegionManager.popFreeRegion, if_pos hinvalid]
  cases hfree : manager.freeRegions with
  | nil => cases nt <;> simp [RegionManager.setNt, filled, coreLocalFreeRegion, hfree]
  | cons region freeRegions =>
      cases nt <;>
        simp [RegionManager.setNt, filled, RegionManager.setCoreLocalFreeRegion]

/-- A refill of a manager with its cores. -/
theorem HasCores.refilled {success : Bool} (hcores : manager.HasCores)
    (hrefill : manager.tryRefillCoreLocalFreeRegion ops core nt =
      some (success, next)) : Refilled core nt manager next := by
  obtain ⟨pushed, hpush, hpopped⟩ := tryRefill_eq_some hrefill
  obtain ⟨hinvalid, hfree⟩ := hcores.isInvalid_of_pushFullRegion hpush
  obtain ⟨hcapacity, hfilled, hslots⟩ := hcores.filled_pushFullRegion hpush
  have hpop := queues_popFreeRegion ops hinvalid
  rw [hpopped, hfree] at hpop
  constructor
  case capacity => exact hpop.1.trans hcapacity
  case freeRegions => exact hpop.2.1
  case filled => exact hpop.2.2.1 ▸ hfilled
  case slots =>
    intro otherCore otherNt hempty hother
    rw [hpop.2.2.2 hempty]
    exact hslots otherCore otherNt hother

/-- A pick takes its region from the used queues and leaves the rest alone. -/
structure Picked (manager : RegionManager) (picked : Option Region × RegionManager) :
    Prop where
  capacity : picked.2.capacity = manager.capacity
  freeRegions : picked.2.freeRegions = manager.freeRegions
  filled : (picked.1.toList ++ picked.2.filled).Perm manager.filled
  slots : picked.2.coreLocalFreeRegion = manager.coreLocalFreeRegion

theorem picked_popUsedRegion (manager : RegionManager) (retries : ℕ) (isGcable : Region → Bool) :
    Picked manager (manager.popUsedRegion retries isGcable) := by
  have hnt := ntRetry_perm isGcable (retries + 1) manager.ntUsedRegions
  have ht := tRetry_perm isGcable (retries + 1) manager.usedRegions
  unfold RegionManager.popUsedRegion
  split
  · rename_i region ntUsedRegions hpop
    rw [hpop] at hnt
    refine ⟨rfl, rfl, ?_, rfl⟩
    simp only [filled, ← List.append_assoc]
    exact hnt.append_right _
  · rename_i ntUsedRegions hpop
    rw [hpop] at hnt
    refine ⟨rfl, rfl, ?_, rfl⟩
    simp only [filled]
    refine List.perm_append_comm_assoc _ _ _ |>.trans ?_
    exact hnt.append ht

/-- With every region gcable, a pick finds one unless both queues are empty. -/
theorem filled_eq_nil_of_popUsedRegion {retries : ℕ}
    (hpop : manager.popUsedRegion retries (fun _ => true) = (none, next)) :
    next.filled = [] := by
  unfold RegionManager.popUsedRegion at hpop
  cases hnt : manager.ntUsedRegions with
  | cons region queue => simp [hnt, ntRetry] at hpop
  | nil =>
      cases ht : manager.usedRegions with
      | cons region queue => simp [hnt, ht, ntRetry, tRetry] at hpop
      | nil =>
          simp only [hnt, ht, ntRetry, tRetry, Prod.mk.injEq, true_and] at hpop
          simp [← hpop, filled]

theorem queues_pushFreeRegion {region : Region}
    (hpush : manager.pushFreeRegion ops region = some next) :
    next.capacity = manager.capacity ∧
      next.freeRegions = manager.freeRegions ++ [ops.reset region] ∧
      next.filled = manager.filled := by
  obtain ⟨-, rfl⟩ := pushFreeRegion_eq_some hpush
  exact ⟨rfl, rfl, rfl⟩

/-- An aborted refill had a region to retire and a full used queue. -/
theorem pushFullRegion_eq_none (hpush : manager.pushFullRegion ops core nt = none) :
    (manager.coreLocalFreeRegion core nt).isInvalid = false ∧
      manager.capacity ≤ manager.filled.length := by
  simp only [RegionManager.pushFullRegion] at hpush
  split at hpush
  · cases hpush
  rename_i hvalid
  refine ⟨by simpa using hvalid, ?_⟩
  rw [filled, List.length_append]
  split at hpush
  all_goals
    split at hpush
    · rename_i hqueue
      have hfull := pushBack_eq_none hqueue
      omega
    · cases hpush

theorem card_live_of_valid {regions : List Region}
    (hvalid : ∀ region ∈ regions, region.isInvalid = false) :
    (live regions).card = regions.length := by
  rw [live, Library.held_of_all_full hvalid, Multiset.coe_card]

/-! ## The constructed queues -/

section Construct

variable {size localCachePtr : ℕ} {isLocal : Bool}

theorem length_carveFree_le {capacity count : ℕ} {queue final : List Region}
    {carving last : Carving} (hqueue : queue.length ≤ capacity)
    (hcarve : carveFree isLocal localCachePtr capacity count queue carving =
      some (final, last)) : final.length ≤ capacity := by
  induction count generalizing queue carving with
  | zero =>
      cases hcarve
      exact hqueue
  | succ count ih =>
      rw [carveFree] at hcarve
      dsimp only at hcarve
      split at hcarve
      · cases hcarve
      · rename_i pushed hpush
        apply ih _ hcarve
        obtain ⟨hlt, rfl⟩ := pushBack_eq_some hpush
        rw [List.length_append, List.length_singleton]
        exact hlt

theorem queues_construct
    (hconstruct : construct size isLocal localCachePtr = some manager) :
    manager.capacity = freeRegionsCount size ∧
      manager.freeRegions.length ≤ freeRegionsCount size ∧ manager.filled = [] := by
  obtain ⟨-, freeRegions, last, hcarve, rfl⟩ := construct_eq_some hconstruct
  exact ⟨rfl, length_carveFree_le (Nat.zero_le _) hcarve, rfl⟩

/-- How many of the regions that the constructor creates are valid: every
`2 ^ 32`nd gets the invalid index. -/
def validCount (size : ℕ) : ℕ :=
  carvedCount size - carvedCount size / 2 ^ 32

theorem countP_invalidIdx (count : ℕ) :
    (List.range count).countP (fun position => position % 2 ^ 32 == 2 ^ 32 - 1) =
      count / 2 ^ 32 := by
  induction count with
  | zero => rfl
  | succ count ih =>
      rw [List.range_succ, List.countP_append, ih, List.countP_singleton]
      split <;> simp only [beq_iff_eq] at * <;> omega

theorem card_owned_construct
    (hconstruct : construct size isLocal localCachePtr = some manager) :
    (owned manager.regions).card = validCount size := by
  have hinvalid : ((List.range (carvedCount size)).map
      (carved isLocal localCachePtr 0)).countP Region.isInvalid =
        carvedCount size / 2 ^ 32 := by
    rw [List.countP_map, ← countP_invalidIdx]
    congr 1
    funext position
    rw [Function.comp_apply, Bool.eq_iff_iff, Circulation.isInvalid_carved, beq_iff_eq]
  have hsplit := List.length_eq_countP_add_countP Region.isInvalid
    (l := (List.range (carvedCount size)).map (carved isLocal localCachePtr 0))
  rw [hinvalid, List.length_map, List.length_range] at hsplit
  rw [owned, Multiset.card_map, live, Library.held_of_perm (regions_construct hconstruct),
    Library.held_eq_filter, Multiset.coe_card, ← List.countP_eq_length_filter, validCount]
  simp only [Bool.not_eq_true, Bool.decide_eq_false] at hsplit
  omega

end Construct

end RegionManager

namespace Circulation

open Library (own held held_append held_cons held_nil own_of_empty own_of_full)
open RegionManager (owned live)

namespace State

/-- From-regions that still have to be pushed. -/
def unpushed (state : State) : List Region :=
  match state.phase with
  | .idle => []
  | .picking _ => state.fromRegions
  | .pushing pushed => state.fromRegions.drop pushed

theorem mem_of_mem_unpushed {state : State} {region : Region}
    (hregion : region ∈ state.unpushed) : region ∈ state.fromRegions := by
  unfold unpushed at hregion
  split at hregion
  · cases hregion
  · exact hregion
  · exact List.mem_of_mem_drop hregion

end State

/-- No push that the next step can make aborts. -/
structure Roomy (ops : RegionOps) (state : State) : Prop where
  refill : ∀ core nt,
    (state.manager.tryRefillCoreLocalFreeRegion ops core nt).isSome = true
  push : ∀ pushed region, state.phase = .pushing pushed →
    state.fromRegions[pushed]? = some region →
      (state.manager.pushFreeRegion ops region).isSome = true

/-- What bounds the queues: collected regions are valid, and as long as the
free list still has an invalid entry nothing was added to the queues. -/
structure RoomInv (count : ℕ) (state : State) : Prop where
  capacity : state.manager.capacity = count
  filled : ∀ region ∈ state.manager.filled ++ state.unpushed,
    region.isInvalid = false
  room : (state.manager.freeRegions ++ (state.manager.filled ++ state.unpushed)).length ≤
      count ∨
    ∀ region ∈ state.manager.freeRegions, region.isInvalid = false

variable {ops : RegionOps} {kPickRegionMaxRetryTimes count : ℕ}
variable {total : Multiset (BitVec 32 × Option ℕ)} {state next : State}

theorem RoomInv.congr (hinv : RoomInv count state)
    (hmanager : next.manager = state.manager)
    (hunpushed : next.unpushed = state.unpushed) : RoomInv count next := by
  constructor
  case capacity => exact hmanager ▸ hinv.capacity
  case filled => exact hmanager ▸ hunpushed ▸ hinv.filled
  case room => exact hmanager ▸ hunpushed ▸ hinv.room

theorem RoomInv.setManager {manager : RegionManager} (hinv : RoomInv count state)
    (hcapacity : manager.capacity = state.manager.capacity)
    (hfree : manager.freeRegions = state.manager.freeRegions)
    (hfilled : manager.filled = state.manager.filled) :
    RoomInv count { state with manager := manager } := by
  constructor
  case capacity => exact hcapacity.trans hinv.capacity
  case filled => exact hfilled ▸ hinv.filled
  case room => exact hfree ▸ hfilled ▸ hinv.room

theorem RoomInv.refill {core : Fin kNumCPUs} {nt : Bool} {manager : RegionManager}
    (hinv : RoomInv count state)
    (hrefilled : RegionManager.Refilled core nt state.manager manager) :
    RoomInv count { state with manager := manager } := by
  constructor
  case capacity => exact hrefilled.capacity.trans hinv.capacity
  case filled =>
    intro region hregion
    rcases List.mem_append.mp hregion with hregion | hregion
    · rcases List.mem_append.mp (hrefilled.filled.mem_iff.mp hregion) with hold | hslot
      · exact hinv.filled region (List.mem_append_left _ hold)
      · simpa using (List.mem_filter.mp hslot).2
    · exact hinv.filled region (List.mem_append_right _ hregion)
  case room =>
    have hlength := hrefilled.filled.length_eq
    have hone := List.length_filter_le (fun region : Region => !region.isInvalid)
      [state.manager.coreLocalFreeRegion core nt]
    rcases hinv.room with hroom | hvalid
    · cases hfree : state.manager.freeRegions with
      | nil =>
          right
          simp [hrefilled.freeRegions, hfree]
      | cons region freeRegions =>
          left
          simp only [hfree, List.length_append, List.length_cons] at hroom hlength hone
          simp only [State.unpushed, hrefilled.freeRegions, hfree, List.tail_cons,
            List.length_append] at hroom ⊢
          simp only [List.length_nil] at hone
          omega
    · right
      intro region hregion
      apply hvalid
      apply List.mem_of_mem_tail
      rwa [← hrefilled.freeRegions]

/-- What a step that begins a round does. -/
theorem step_beginPick_eq_some {numRegionsPerGcRound : ℕ}
    (hstep : step ops kPickRegionMaxRetryTimes state (.beginPick numRegionsPerGcRound) =
      some next) :
    next.manager = state.manager ∧ next.unpushed = state.unpushed := by
  rw [Circulation.step, Option.ite_none_right_eq_some, Option.some.injEq] at hstep
  obtain ⟨hidle, rfl⟩ := hstep
  exact ⟨rfl, by simp only [State.unpushed, hidle]⟩

/-- A pick moves the popped region, if any, to the from-regions. -/
theorem step_pick_eq_some {isGcable : Region → Bool}
    (hstep : step ops kPickRegionMaxRetryTimes state (.pick isGcable) = some next) :
    next.manager = (state.manager.popUsedRegion kPickRegionMaxRetryTimes isGcable).2 ∧
      next.unpushed = state.unpushed ++
        (state.manager.popUsedRegion kPickRegionMaxRetryTimes isGcable).1.toList := by
  rw [Circulation.step] at hstep
  split at hstep
  · rename_i numRegionsPerGcRound hphase
    split at hstep
    · rename_i manager hpop
      cases hstep
      simp [State.unpushed, hphase, hpop]
    · rename_i region manager hpop
      cases hstep
      constructor
      · simp [hpop]
      · simp only [State.unpushed, hphase, hpop, Option.toList_some]
        by_cases hmore : (state.fromRegions ++ [region]).length < numRegionsPerGcRound
        · simp only [if_pos hmore]
        · simp only [if_neg hmore, List.drop_zero]
  · cases hstep

/-- A push takes the next from-region, unless the loop is over. -/
theorem step_push_eq_some
    (hstep : step ops kPickRegionMaxRetryTimes state .push = some next) :
    next.manager = state.manager ∧ next.unpushed = state.unpushed ∨
      ∃ region, state.unpushed = region :: next.unpushed ∧
        state.manager.pushFreeRegion ops region = some next.manager := by
  rw [Circulation.step] at hstep
  split at hstep
  · rename_i pushed hphase
    split at hstep
    · rename_i hend
      cases hstep
      left
      refine ⟨rfl, ?_⟩
      simp only [State.unpushed, hphase]
      exact (List.drop_eq_nil_of_le (List.getElem?_eq_none_iff.mp hend)).symm
    · rename_i region hregion
      split at hstep
      · cases hstep
      · rename_i manager hpush
        cases hstep
        right
        refine ⟨region, ?_, hpush⟩
        obtain ⟨hlt, rfl⟩ := List.getElem?_eq_some_iff.mp hregion
        simp only [State.unpushed, hphase]
        rw [List.drop_set_of_lt (Nat.lt_succ_self pushed)]
        exact List.drop_eq_getElem_cons hlt
  · cases hstep

/-- Moving a region from a used queue to the from-regions. -/
theorem RoomInv.pick {picked : Option Region × RegionManager}
    (hinv : RoomInv count state) (hpicked : RegionManager.Picked state.manager picked)
    (hmanager : next.manager = picked.2)
    (hunpushed : next.unpushed = state.unpushed ++ picked.1.toList) :
    RoomInv count next := by
  have hperm : (next.manager.filled ++ next.unpushed).Perm
      (state.manager.filled ++ state.unpushed) := by
    rw [hmanager, hunpushed]
    refine List.Perm.trans ?_ (hpicked.filled.append_right _)
    grind
  have hfree : next.manager.freeRegions = state.manager.freeRegions :=
    hmanager ▸ hpicked.freeRegions
  constructor
  case capacity => exact hmanager ▸ hpicked.capacity.trans hinv.capacity
  case filled => exact fun region hregion => hinv.filled region (hperm.mem_iff.mp hregion)
  case room =>
    rcases hinv.room with hroom | hvalid
    · left
      rw [List.length_append] at hroom ⊢
      rwa [hfree, hperm.length_eq]
    · right
      rwa [hfree]

theorem isInvalid_reset (region : Region) :
    (ops.reset region).isInvalid = region.isInvalid :=
  RegionManager.isInvalid_congr (ops.identity_reset region)

/-- Pushing the next from-region to the free list. -/
theorem RoomInv.push {region : Region} (hinv : RoomInv count state)
    (hunpushed : state.unpushed = region :: next.unpushed)
    (hpush : state.manager.pushFreeRegion ops region = some next.manager) :
    RoomInv count next := by
  obtain ⟨hcapacity, hfree, hfilled⟩ := RegionManager.queues_pushFreeRegion hpush
  have hvalid : region.isInvalid = false := by
    apply hinv.filled
    rw [hunpushed]
    simp
  constructor
  case capacity => exact hcapacity.trans hinv.capacity
  case filled =>
    intro other hother
    apply hinv.filled
    rw [hunpushed]
    rw [hfilled] at hother
    rcases List.mem_append.mp hother with hother | hother
    · exact List.mem_append_left _ hother
    · exact List.mem_append_right _ (List.mem_cons_of_mem _ hother)
  case room =>
    rcases hinv.room with hroom | hall
    · left
      rw [hunpushed] at hroom
      simp only [hfree, hfilled, List.length_append, List.length_cons,
        List.length_nil] at hroom ⊢
      omega
    · right
      intro other hother
      rw [hfree] at hother
      rcases List.mem_append.mp hother with hother | hother
      · exact hall other hother
      · rw [List.mem_singleton.mp hother, isInvalid_reset]
        exact hvalid

theorem RoomInv.step {action : Action} (hcores : state.manager.HasCores)
    (hinv : RoomInv count state)
    (hstep : step ops kPickRegionMaxRetryTimes state action = some next) :
    RoomInv count next := by
  cases action with
  | refill core nt =>
      rw [Circulation.step] at hstep
      split at hstep
      · cases hstep
      · rename_i hrefill
        cases hstep
        exact hinv.refill (hcores.refilled hrefill)
  | beginPick numRegionsPerGcRound =>
      obtain ⟨hmanager, hunpushed⟩ := step_beginPick_eq_some hstep
      exact hinv.congr hmanager hunpushed
  | pick isGcable =>
      obtain ⟨hmanager, hunpushed⟩ := step_pick_eq_some hstep
      exact hinv.pick (RegionManager.picked_popUsedRegion _ _ _) hmanager hunpushed
  | push =>
      rcases step_push_eq_some hstep with
        ⟨hmanager, hunpushed⟩ | ⟨region, hunpushed, hpush⟩
      · exact hinv.congr hmanager hunpushed
      · exact hinv.push hunpushed hpush

theorem card_places (hinv : Inv total state) :
    (live state.manager.regions).card + (live state.fromRegions).card = total.card := by
  rw [← hinv.conserved, State.places, RegionManager.owned_append, Multiset.card_add,
    RegionManager.owned, RegionManager.owned, Multiset.card_map, Multiset.card_map]

/-- With no more valid regions than a queue holds, no push aborts. -/
theorem RoomInv.roomy (hinv : Inv total state) (hroom : RoomInv count state)
    (hfits : total.card ≤ count) : Roomy ops state := by
  have hcard := card_places hinv
  have hqueued : (live state.manager.filled).card = state.manager.filled.length :=
    RegionManager.card_live_of_valid fun region hregion =>
      hroom.filled region (List.mem_append_left _ hregion)
  constructor
  case refill =>
    intro core nt
    by_contra hnone
    have hpush : state.manager.pushFullRegion ops core nt = none := by
      rw [Bool.not_eq_true, Option.isSome_eq_false_iff, Option.isNone_iff_eq_none,
        RegionManager.tryRefillCoreLocalFreeRegion] at hnone
      split at hnone
      · assumption
      · cases hnone
    obtain ⟨hvalid, hfull⟩ := RegionManager.pushFullRegion_eq_none hpush
    have hregions := congrArg Multiset.card (hinv.cores.live_regions core nt)
    simp only [own_of_full hvalid, RegionManager.queued, live, held_append,
      Multiset.card_add, Multiset.card_singleton] at hregions
    simp only [RegionManager.filled, live, held_append, Multiset.card_add,
      List.length_append] at hqueued hfull
    have hcapacity := hroom.capacity
    simp only [live] at hcard
    omega
  case push =>
    intro pushed region hphase hregion
    by_contra hnone
    have hfull : count ≤ state.manager.freeRegions.length := by
      rw [← hroom.capacity]
      rw [Bool.not_eq_true, Option.isSome_eq_false_iff, Option.isNone_iff_eq_none,
        RegionManager.pushFreeRegion] at hnone
      split at hnone
      · rename_i hqueue
        exact RegionManager.pushBack_eq_none hqueue
      · cases hnone
    have hunpushed : region ∈ state.unpushed := by
      rw [State.unpushed, hphase]
      exact List.mem_of_getElem? (by rwa [List.getElem?_drop, add_zero])
    rcases hroom.room with hlength | hvalid
    · have hpositive := List.length_pos_of_mem hunpushed
      simp only [List.length_append] at hlength
      omega
    · have hfrom : 0 < (live state.fromRegions).card := by
        apply Multiset.card_pos_iff_exists_mem.mpr
        exact ⟨region, Library.mem_held.mpr ⟨List.mem_of_getElem? hregion,
          hroom.filled region (List.mem_append_right _ hunpushed)⟩⟩
      have hfree := RegionManager.card_live_of_valid hvalid
      simp only [RegionManager.regions, live, held_append, Multiset.card_add] at *
      omega

/-! ## All regions in the free list -/

section Overfull

variable {size localCachePtr : ℕ} {isLocal : Bool} {manager : RegionManager}

theorem roomInv_of_reachable
    (hconstruct : RegionManager.construct size isLocal localCachePtr = some manager)
    (hreachable : (machine ops kPickRegionMaxRetryTimes size isLocal
      localCachePtr).Reachable state) :
    RoomInv (RegionManager.freeRegionsCount size) state := by
  obtain ⟨hcapacity, hfree, hfilled⟩ := RegionManager.queues_construct hconstruct
  refine (hreachable.invariant (fun state => Inv (owned manager.regions) state ∧
    RoomInv (RegionManager.freeRegionsCount size) state) ?_ ?_).2
  · intro start hinitial
    have hinv := inv_of_reachable hconstruct
      (.initial hinitial : (machine ops kPickRegionMaxRetryTimes size isLocal
        localCachePtr).Reachable start)
    obtain ⟨hstart, hfrom, hidle⟩ := hinitial
    cases Option.some.inj (hstart.symm.trans hconstruct)
    refine ⟨hinv, hcapacity, ?_, ?_⟩
    · simp [hfilled, State.unpushed, hidle]
    · left
      simpa [hfilled, State.unpushed, hidle] using hfree
  · intro state next action hinv _ hstep
    exact ⟨hinv.1.step hstep, hinv.2.step hinv.1.cores hstep⟩

/-- No region is in the free list or in a core's slot. -/
structure Drained (manager : RegionManager) : Prop where
  freeRegions : manager.freeRegions = []
  slots : ∀ core nt, (manager.coreLocalFreeRegion core nt).isInvalid = true

theorem Drained.live_regions (hcores : manager.HasCores) (hdrained : Drained manager) :
    live manager.regions = live manager.filled := by
  have hslots : ∀ slots : List Region, slots.length = kNumCPUs →
      (∀ core : Fin kNumCPUs, (slots.getD core Region.invalid).isInvalid = true) →
        live slots = 0 := by
    intro slots hlength hinvalid
    apply Library.held_of_all_empty
    intro region hregion
    obtain ⟨core, hcore, rfl⟩ := List.getElem_of_mem hregion
    have hslot := hinvalid ⟨core, hlength ▸ hcore⟩
    rwa [List.getD_eq_getElem _ _ hcore] at hslot
  have hregions := hslots _ hcores.regions fun core => hdrained.slots core false
  have hntRegions := hslots _ hcores.ntRegions fun core => hdrained.slots core true
  simp only [live] at hregions hntRegions
  simp only [RegionManager.regions, RegionManager.filled, live, held_append,
    hregions, hntRegions, hdrained.freeRegions, held_nil, zero_add]
  ac_rfl

/-- A collector that finds every region gcable empties the used queues. -/
theorem exists_picked {numRegionsPerGcRound : ℕ}
    (hreachable : (machine ops kPickRegionMaxRetryTimes size isLocal
      localCachePtr).Reachable state)
    (hphase : state.phase = .picking numRegionsPerGcRound)
    (hdrained : Drained state.manager)
    (hmore : state.fromRegions.length + state.manager.filled.length <
      numRegionsPerGcRound) :
    ∃ next, (machine ops kPickRegionMaxRetryTimes size isLocal
        localCachePtr).Reachable next ∧
      next.phase = .pushing 0 ∧ Drained next.manager ∧ next.manager.filled = [] := by
  induction hlength : state.manager.filled.length using Nat.strong_induction_on
    generalizing state with
  | _ length ih =>
      have hpicked := RegionManager.picked_popUsedRegion state.manager
        kPickRegionMaxRetryTimes fun _ => true
      cases hpop : state.manager.popUsedRegion kPickRegionMaxRetryTimes fun _ => true with
      | mk picked manager =>
          rw [hpop] at hpicked
          have hnext : Drained manager := by
            constructor
            case freeRegions => exact hpicked.freeRegions.trans hdrained.freeRegions
            case slots => exact fun core nt => hpicked.slots ▸ hdrained.slots core nt
          cases picked with
          | none =>
              have hstep : (machine ops kPickRegionMaxRetryTimes size isLocal
                  localCachePtr).step state (.pick fun _ => true) =
                    some ⟨manager, state.fromRegions, .pushing 0⟩ := by
                simp only [machine, step, hphase, hpop]
              exact ⟨_, .step hreachable trivial hstep, rfl, hnext,
                RegionManager.filled_eq_nil_of_popUsedRegion hpop⟩
          | some region =>
              have hfewer := hpicked.filled.length_eq
              simp only [Option.toList_some, List.length_append, List.length_cons,
                List.length_nil] at hfewer
              have hlt : (state.fromRegions ++ [region]).length < numRegionsPerGcRound := by
                rw [List.length_append, List.length_singleton]
                omega
              have hstep : (machine ops kPickRegionMaxRetryTimes size isLocal
                  localCachePtr).step state (.pick fun _ => true) =
                    some ⟨manager, state.fromRegions ++ [region],
                      .picking numRegionsPerGcRound⟩ := by
                simp only [machine, step, hphase, hpop, if_pos hlt]
              refine ih _ ?_ (.step hreachable trivial hstep) rfl hnext ?_ rfl
              · dsimp only
                omega
              · dsimp only
                rw [List.length_append, List.length_singleton]
                omega

variable (hroomy : ∀ state, (machine ops kPickRegionMaxRetryTimes size isLocal
  localCachePtr).Reachable state → Roomy ops state)

include hroomy

/-- While no push aborts, the from-regions go to the free list one by one. -/
theorem exists_pushed {pushed : ℕ}
    (hreachable : (machine ops kPickRegionMaxRetryTimes size isLocal
      localCachePtr).Reachable state)
    (hphase : state.phase = .pushing 0) (hfree : state.manager.freeRegions = [])
    (hpushed : pushed ≤ state.fromRegions.length) :
    ∃ next, (machine ops kPickRegionMaxRetryTimes size isLocal
        localCachePtr).Reachable next ∧
      next.phase = .pushing pushed ∧
      next.fromRegions.length = state.fromRegions.length ∧
      next.manager.freeRegions.length = pushed := by
  induction pushed with
  | zero => exact ⟨state, hreachable, hphase, rfl, by rw [hfree, List.length_nil]⟩
  | succ pushed ih =>
      obtain ⟨middle, hmiddle, hphase, hlength, hcount⟩ := ih (by omega)
      have hregion := List.getElem?_eq_getElem (show pushed < middle.fromRegions.length by
        omega)
      obtain ⟨manager, hpush⟩ := Option.isSome_iff_exists.mp
        ((hroomy middle hmiddle).push _ _ hphase hregion)
      have hstep : (machine ops kPickRegionMaxRetryTimes size isLocal localCachePtr).step
          middle .push = some ⟨manager, middle.fromRegions.set pushed
            (ops.moved middle.fromRegions[pushed]), .pushing (pushed + 1)⟩ := by
        simp only [machine, step, hphase, hregion, hpush]
      refine ⟨_, .step hmiddle trivial hstep, rfl, ?_, ?_⟩
      · rw [List.length_set, hlength]
      · rw [(RegionManager.queues_pushFreeRegion hpush).2.1, List.length_append, hcount,
          List.length_singleton]

variable (hconstruct : RegionManager.construct size isLocal localCachePtr = some manager)

include hconstruct

/-- While no push aborts, a refill of any slot is a step. -/
theorem exists_refill (core : Fin kNumCPUs) (nt : Bool)
    (hreachable : (machine ops kPickRegionMaxRetryTimes size isLocal
      localCachePtr).Reachable state) :
    ∃ manager, RegionManager.Refilled core nt state.manager manager ∧
      (machine ops kPickRegionMaxRetryTimes size isLocal localCachePtr).Reachable
        { state with manager := manager } := by
  obtain ⟨⟨success, manager⟩, hrefill⟩ :=
    Option.isSome_iff_exists.mp ((hroomy state hreachable).refill core nt)
  have hstep : (machine ops kPickRegionMaxRetryTimes size isLocal localCachePtr).step
      state (.refill core nt) = some { state with manager := manager } := by
    simp only [machine, step, hrefill]
  exact ⟨manager, (inv_of_reachable hconstruct hreachable).cores.refilled hrefill,
    .step hreachable trivial hstep⟩

/-- Refills empty the free list. -/
theorem exists_freeless
    (hreachable : (machine ops kPickRegionMaxRetryTimes size isLocal
      localCachePtr).Reachable state) :
    ∃ manager, (machine ops kPickRegionMaxRetryTimes size isLocal
        localCachePtr).Reachable { state with manager := manager } ∧
      manager.freeRegions = [] := by
  induction hfree : state.manager.freeRegions generalizing state with
  | nil => exact ⟨state.manager, hreachable, hfree⟩
  | cons region freeRegions ih =>
      obtain ⟨manager, hrefilled, hnext⟩ :=
        exists_refill hroomy hconstruct ⟨0, by decide⟩ false hreachable
      have htail : manager.freeRegions = freeRegions := by
        rw [hrefilled.freeRegions, hfree, List.tail_cons]
      have hrest := ih hnext htail
      exact hrest

/-- Refills with an empty free list empty the slots. -/
theorem exists_emptied
    (hreachable : (machine ops kPickRegionMaxRetryTimes size isLocal
      localCachePtr).Reachable state) (slots : List (Fin kNumCPUs × Bool)) :
    ∃ manager, (machine ops kPickRegionMaxRetryTimes size isLocal
        localCachePtr).Reachable { state with manager := manager } ∧
      manager.freeRegions = [] ∧
      ∀ slot ∈ slots, (manager.coreLocalFreeRegion slot.1 slot.2).isInvalid = true := by
  induction slots with
  | nil =>
      obtain ⟨manager, hnext, hfree⟩ := exists_freeless hroomy hconstruct hreachable
      exact ⟨manager, hnext, hfree, by simp⟩
  | cons slot slots ih =>
      obtain ⟨manager, hnext, hfree, hslots⟩ := ih
      obtain ⟨refilled, hrefilled, hlast⟩ :=
        exists_refill hroomy hconstruct slot.1 slot.2 hnext
      refine ⟨refilled, hlast, by rw [hrefilled.freeRegions, hfree, List.tail_nil], ?_⟩
      intro other hother
      apply hrefilled.slots other.1 other.2 hfree
      rcases List.mem_cons.mp hother with rfl | hother
      · exact .inr ⟨rfl, rfl⟩
      · exact .inl (hslots other hother)

theorem exists_drained
    (hreachable : (machine ops kPickRegionMaxRetryTimes size isLocal
      localCachePtr).Reachable state) :
    ∃ manager, (machine ops kPickRegionMaxRetryTimes size isLocal
        localCachePtr).Reachable { state with manager := manager } ∧
      Drained manager := by
  obtain ⟨manager, hnext, hfree, hslots⟩ := exists_emptied hroomy hconstruct hreachable
    (Finset.univ : Finset (Fin kNumCPUs × Bool)).toList
  refine ⟨manager, hnext, hfree, fun core nt => hslots (core, nt) ?_⟩
  exact Finset.mem_toList.mpr (Finset.mem_univ _)

/-- If no push ever aborts, the valid regions fit in one queue. -/
theorem validCount_le :
    RegionManager.validCount size ≤ RegionManager.freeRegionsCount size := by
  have hstart : (machine ops kPickRegionMaxRetryTimes size isLocal
      localCachePtr).Reachable ⟨manager, [], .idle⟩ :=
    .initial ⟨hconstruct, rfl, rfl⟩
  obtain ⟨drained, hempty, hdrained⟩ := exists_drained hroomy hconstruct hstart
  have hbegin : (machine ops kPickRegionMaxRetryTimes size isLocal
      localCachePtr).step ⟨drained, [], .idle⟩ (.beginPick (drained.filled.length + 1)) =
        some ⟨drained, [], .picking (drained.filled.length + 1)⟩ := rfl
  obtain ⟨picked, hpicked, hphase, hdrained, hfilled⟩ :=
    exists_picked (.step hempty trivial hbegin) rfl hdrained (by simp)
  have hinv := inv_of_reachable hconstruct hpicked
  have hfrom : RegionManager.validCount size ≤ picked.fromRegions.length := by
    have hcard := card_places hinv
    rw [hdrained.live_regions hinv.cores, hfilled, live, held_nil, Multiset.card_zero,
      zero_add, RegionManager.card_owned_construct hconstruct] at hcard
    rw [← hcard]
    exact Library.card_held_le _
  by_contra hmore
  obtain ⟨full, hfull, hpushing, hlength, hcount⟩ := exists_pushed hroomy
    hpicked hphase hdrained.freeRegions
    (show RegionManager.freeRegionsCount size ≤ picked.fromRegions.length by omega)
  have hregion := List.getElem?_eq_getElem
    (show RegionManager.freeRegionsCount size < full.fromRegions.length by omega)
  obtain ⟨next, hpush⟩ := Option.isSome_iff_exists.mp
    ((hroomy full hfull).push _ _ hpushing hregion)
  have hlt := (RegionManager.pushFreeRegion_eq_some hpush).1
  rw [hcount, (roomInv_of_reachable hconstruct hfull).capacity] at hlt
  exact lt_irrefl _ hlt

end Overfull

/-! ## When every push has room -/

section Result

variable {size localCachePtr : ℕ} {isLocal : Bool} {manager : RegionManager}

/-- In no run does a push abort exactly when the valid regions in circulation
fit in one queue. -/
theorem roomy_iff
    (hconstruct : RegionManager.construct size isLocal localCachePtr = some manager) :
    (∀ state, (machine ops kPickRegionMaxRetryTimes size isLocal
        localCachePtr).Reachable state → Roomy ops state) ↔
      RegionManager.validCount size ≤ RegionManager.freeRegionsCount size := by
  constructor
  · exact fun hroomy => validCount_le hroomy hconstruct
  · intro hfits state hreachable
    apply (roomInv_of_reachable hconstruct hreachable).roomy
      (inv_of_reachable hconstruct hreachable)
    rwa [RegionManager.card_owned_construct hconstruct]

/-- The condition excludes every cache whose count fits the `uint32_t` index. -/
theorem freeRegionsCount_lt_validCount
    (hsmall : RegionManager.freeRegionsCount size < 2 ^ 32) :
    RegionManager.freeRegionsCount size < RegionManager.validCount size := by
  have hiterations : RegionManager.freeRegionsCount size - 2 * kNumSocket1CPUs ≤
      RegionManager.iterations (Library.Binary64.toDouble
        (RegionManager.freeRegionsCount size - 2 * kNumSocket1CPUs)) := by
    rw [Library.Binary64.toDouble_of_lt (by omega)]
    exact RegionManager.le_iterations le_rfl (by omega)
  have hle := RegionManager.iterations_le (Library.Binary64.toDouble
    (RegionManager.freeRegionsCount size - 2 * kNumSocket1CPUs))
  rw [Library.Binary64.toDouble_of_lt (by omega)] at hle
  simp only [RegionManager.validCount, RegionManager.carvedCount, kNumCPUs,
    kNumSocket1CPUs] at hiterations hle ⊢
  rw [Library.Binary64.toDouble_of_lt (by omega)] at hiterations ⊢
  omega

/-- The shipped test's cache: 52 regions for queues of 16. -/
theorem not_roomy_16384 :
    ∃ manager, RegionManager.construct 16384 true 0 = some manager ∧
      ¬ ∀ state, (machine RegionOps.bump 10 16384 true 0).Reachable state →
        Roomy RegionOps.bump state := by
  have hcount : RegionManager.freeRegionsCount 16384 = 16 := by decide +kernel
  obtain ⟨manager, hmanager⟩ := RegionManager.exists_construct true 0
    (show 2 * kNumSocket1CPUs < RegionManager.freeRegionsCount 16384 by
      rw [hcount]
      decide)
    (by
      rw [hcount]
      norm_num)
  have hmore : ¬ RegionManager.validCount 16384 ≤
      RegionManager.freeRegionsCount 16384 := by
    decide +kernel
  exact ⟨manager, hmanager, fun hroomy => hmore ((roomy_iff hmanager).mp hroomy)⟩

/-- Sixteen cores retire their first region; the seventeenth aborts. -/
theorem not_forall_roomy :
    ¬ ∀ (ops : RegionOps) (kPickRegionMaxRetryTimes size localCachePtr : ℕ)
        (isLocal : Bool) (state : State),
      (machine ops kPickRegionMaxRetryTimes size isLocal
        localCachePtr).Reachable state → Roomy ops state := by
  intro hclaim
  have hrun : (RegionManager.construct 16384 true 0).bind (fun manager =>
      ((machine RegionOps.bump 10 16384 true 0).run ⟨manager, [], .idle⟩
        ((List.finRange 16).map fun core => .refill (core.castLE (by decide)) false)).bind
          fun state => some (state.manager.tryRefillCoreLocalFreeRegion RegionOps.bump
            ⟨16, by decide⟩ false).isSome) = some false := by
    decide +kernel
  rw [Option.bind_eq_some_iff] at hrun
  obtain ⟨manager, hmanager, hrun⟩ := hrun
  rw [Option.bind_eq_some_iff] at hrun
  obtain ⟨state, hrun, hlast⟩ := hrun
  have hreachable : (machine RegionOps.bump 10 16384 true 0).Reachable state :=
    Library.Machine.Reachable.of_run ⟨hmanager, rfl, rfl⟩ hrun
  have hroomy := (hclaim _ _ _ _ _ state hreachable).refill ⟨16, by decide⟩ false
  rw [Option.some.injEq] at hlast
  exact absurd (hroomy.symm.trans hlast) (by decide)

end Result

end Circulation

end DynamicSwap
