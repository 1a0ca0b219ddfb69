import DynamicSwap.Region.Manager

/-!
# What `pop_used_region` finds

The nt loop puts a pinned region to the back of its queue and so looks at the
first `kPickRegionMaxRetryTimes + 2` regions.  The other loop puts it back to
the front and looks at the same region each time.
-/

namespace DynamicSwap.RegionManager

variable (kPickRegionMaxRetryTimes : ℕ) (isGcable : Region → Bool)
variable (manager : RegionManager)

/-- Some region among the first `kPickRegionMaxRetryTimes + 2` is gcable. -/
def Collectable (queue : List Region) : Prop :=
  ∃ region ∈ queue.take (kPickRegionMaxRetryTimes + 2), isGcable region = true

/-- The queues after a pick are those before it less the picked region. -/
def TakenFrom (picked : Option Region) (before after : RegionManager) : Prop :=
  (after = { before with
      ntUsedRegions := after.ntUsedRegions
      usedRegions := after.usedRegions }) ∧
    ((picked.toList ++ after.ntUsedRegions).Perm before.ntUsedRegions ∧
        after.usedRegions.Perm before.usedRegions ∨
      after.ntUsedRegions.Perm before.ntUsedRegions ∧
        (picked.toList ++ after.usedRegions).Perm before.usedRegions)

/-- A pick finds a gcable region if one is near the front of a queue, takes it
out of its queue and leaves all others in theirs. -/
structure FindsCollectable : Prop where
  found : Collectable kPickRegionMaxRetryTimes isGcable manager.ntUsedRegions ∨
      Collectable kPickRegionMaxRetryTimes isGcable manager.usedRegions →
    (manager.popUsedRegion kPickRegionMaxRetryTimes isGcable).1.isSome = true
  gcable : ∀ region ∈ (manager.popUsedRegion kPickRegionMaxRetryTimes isGcable).1,
    isGcable region = true
  taken : TakenFrom (manager.popUsedRegion kPickRegionMaxRetryTimes isGcable).1 manager
    (manager.popUsedRegion kPickRegionMaxRetryTimes isGcable).2

/-- The second loop never gets past a pinned front. -/
def FrontDecides : Prop :=
  Collectable kPickRegionMaxRetryTimes isGcable manager.ntUsedRegions ∨
    (∃ region ∈ manager.usedRegions.head?, isGcable region = true) ∨
      ¬ Collectable kPickRegionMaxRetryTimes isGcable manager.usedRegions

variable {kPickRegionMaxRetryTimes isGcable manager}

theorem isSome_ntRetry (isGcable : Region → Bool) (retries : ℕ) (queue : List Region) :
    (ntRetry isGcable retries queue).1.isSome = true ↔
      ∃ region ∈ queue.take (retries + 1), isGcable region = true := by
  fun_induction ntRetry isGcable retries queue with
  | case1 => simp
  | case2 retries region queue hgcable =>
      simp only [Option.isSome_some, true_iff]
      exact ⟨region, by simp, hgcable⟩
  | case3 region queue hpinned => simp [hpinned]
  | case4 region queue hpinned retries ih =>
      rw [ih, List.take_succ_cons, List.take_append]
      simp only [List.mem_append, List.mem_cons]
      constructor
      · rintro ⟨found, hfound | hlast, hgcable⟩
        · exact ⟨found, .inr hfound, hgcable⟩
        · have heq := List.mem_singleton.mp (List.mem_of_mem_take hlast)
          exact absurd (heq ▸ hgcable) hpinned
      · rintro ⟨found, rfl | hfound, hgcable⟩
        · exact absurd hgcable hpinned
        · exact ⟨found, .inl hfound, hgcable⟩

theorem gcable_ntRetry (isGcable : Region → Bool) (retries : ℕ) (queue : List Region) :
    ∀ region ∈ (ntRetry isGcable retries queue).1, isGcable region = true := by
  fun_induction ntRetry isGcable retries queue with
  | case1 => simp
  | case2 retries region queue hgcable =>
      rintro _ ⟨⟩
      exact hgcable
  | case3 => simp
  | case4 region queue hpinned retries ih => exact ih

theorem isSome_tRetry (isGcable : Region → Bool) (retries : ℕ) (queue : List Region) :
    (tRetry isGcable retries queue).1.isSome = true ↔
      ∃ region ∈ queue.head?, isGcable region = true := by
  fun_induction tRetry isGcable retries queue with
  | case1 => simp
  | case2 retries region queue hgcable => simp [hgcable]
  | case3 region queue hpinned => simp [hpinned]
  | case4 region queue hpinned retries ih => exact ih

theorem gcable_tRetry (isGcable : Region → Bool) (retries : ℕ) (queue : List Region) :
    ∀ region ∈ (tRetry isGcable retries queue).1, isGcable region = true := by
  fun_induction tRetry isGcable retries queue with
  | case1 => simp
  | case2 retries region queue hgcable =>
      rintro _ ⟨⟩
      exact hgcable
  | case3 => simp
  | case4 region queue hpinned retries ih => exact ih

theorem isSome_popUsedRegion :
    (manager.popUsedRegion kPickRegionMaxRetryTimes isGcable).1.isSome = true ↔
      Collectable kPickRegionMaxRetryTimes isGcable manager.ntUsedRegions ∨
        ∃ region ∈ manager.usedRegions.head?, isGcable region = true := by
  have hnt := isSome_ntRetry isGcable (kPickRegionMaxRetryTimes + 1)
    manager.ntUsedRegions
  have ht := isSome_tRetry isGcable (kPickRegionMaxRetryTimes + 1)
    manager.usedRegions
  rw [Collectable, ← hnt, ← ht]
  unfold popUsedRegion
  split
  · rename_i region ntUsedRegions hpop
    simp [hpop]
  · rename_i ntUsedRegions hpop
    simp [hpop]

theorem gcable_popUsedRegion :
    ∀ region ∈ (manager.popUsedRegion kPickRegionMaxRetryTimes isGcable).1,
      isGcable region = true := by
  unfold popUsedRegion
  split
  · rename_i region ntUsedRegions hpop
    have hgcable := gcable_ntRetry isGcable
      (kPickRegionMaxRetryTimes + 1) manager.ntUsedRegions
    rwa [hpop] at hgcable
  · exact gcable_tRetry _ _ _

theorem takenFrom_popUsedRegion :
    TakenFrom (manager.popUsedRegion kPickRegionMaxRetryTimes isGcable).1 manager
      (manager.popUsedRegion kPickRegionMaxRetryTimes isGcable).2 := by
  have hnt := ntRetry_perm isGcable (kPickRegionMaxRetryTimes + 1) manager.ntUsedRegions
  have ht := tRetry_perm isGcable (kPickRegionMaxRetryTimes + 1) manager.usedRegions
  unfold popUsedRegion
  split
  · rename_i region ntUsedRegions hpop
    rw [hpop] at hnt
    exact ⟨rfl, .inl ⟨hnt, List.Perm.refl _⟩⟩
  · rename_i ntUsedRegions hpop
    rw [hpop] at hnt
    exact ⟨rfl, .inr ⟨hnt, ht⟩⟩

/-- A pick does what it promises exactly when the front of `used_regions_` is
what decides. -/
theorem findsCollectable_iff :
    FindsCollectable kPickRegionMaxRetryTimes isGcable manager ↔
      FrontDecides kPickRegionMaxRetryTimes isGcable manager := by
  constructor
  · intro hfinds
    by_cases hused : Collectable kPickRegionMaxRetryTimes isGcable manager.usedRegions
    · have hsome := isSome_popUsedRegion.mp (hfinds.found (.inr hused))
      exact hsome.imp_right Or.inl
    · exact .inr (.inr hused)
  · intro hfront
    constructor
    case found =>
      intro hcollectable
      rw [isSome_popUsedRegion]
      rcases hfront with hnt | hhead | hnone
      · exact .inl hnt
      · exact .inr hhead
      · exact .inl (hcollectable.resolve_right hnone)
    case gcable => exact gcable_popUsedRegion
    case taken => exact takenFrom_popUsedRegion

/-- Region 0 is pinned in front of region 1. -/
def pinnedFront : RegionManager where
  coreLocalFreeRegions := []
  coreLocalFreeNtRegions := []
  freeRegions := []
  usedRegions := [⟨0, some 0, Region.kHeaderSize⟩, ⟨1, some 1024, Region.kHeaderSize⟩]
  ntUsedRegions := []
  capacity := 5
  headers _ := {}

theorem not_forall_findsCollectable :
    ¬ ∀ retries isGcable manager, FindsCollectable retries isGcable manager := by
  intro hclaim
  have hsome := (hclaim 3 (fun region => region.regionIdx == 1) pinnedFront).found
    (.inr ⟨⟨1, some 1024, Region.kHeaderSize⟩, by decide, by decide⟩)
  revert hsome
  decide

end DynamicSwap.RegionManager
