import DynamicSwap.Pager.Threads

/-!
# What the pager's guard promises

The guard compares `swap_threshold` with `available_mem`, which only a scan
stores and which therefore stands still for a whole pass.  The pager calls
`swap_in` on the strength of what the last scan found, not of what is present:
the headroom at the call is the threshold up to the objects that became present
after their visit, the pager's own among them.
-/

namespace DynamicSwap.Pager

variable {Meta : Type} {count numGcThreads : ℕ}

/-- Registered bytes of the refs that satisfy a test. -/
def totalSize (test : ObjRef → Bool) (refs : List ObjRef) : ℕ :=
  ((refs.filter test).map ObjRef.size).sum

/-- Registered bytes that a scan found present. -/
def scanTotal (visits : List (ObjRef × Bool)) : ℕ :=
  ((visits.filter Prod.snd).map fun visit => visit.1.size).sum

/-- Registered bytes that satisfy a test although their visit found them
absent, and those of refs that the scan did not visit. -/
def unseenSize (test : ObjRef → Bool) : List ObjRef → List (ObjRef × Bool) → ℕ
  | refs, [] => totalSize test refs
  | [], _ => 0
  | ref :: refs, (_, found) :: visits =>
      (if test ref && !found then ref.size else 0) + unseenSize test refs visits

/-- `cache_size - total` in 64 bits. -/
def wrappedDifference (cacheSize total : ℕ) : ℕ :=
  (cacheSize + (2 ^ 64 - total % 2 ^ 64)) % 2 ^ 64

theorem wrappedDifference_of_le {cacheSize total : ℕ}
    (hcacheSize : cacheSize < 2 ^ 64) (htotal : total ≤ cacheSize) :
    wrappedDifference cacheSize total = cacheSize - total := by
  unfold wrappedDifference
  omega

@[simp]
theorem totalSize_nil (test : ObjRef → Bool) : totalSize test [] = 0 := rfl

theorem totalSize_cons (test : ObjRef → Bool) (ref : ObjRef) (refs : List ObjRef) :
    totalSize test (ref :: refs) =
      (if test ref then ref.size else 0) + totalSize test refs := by
  by_cases htest : test ref <;> simp [totalSize, htest]

@[simp]
theorem scanTotal_nil : scanTotal [] = 0 := rfl

theorem scanTotal_cons (ref : ObjRef) (found : Bool)
    (visits : List (ObjRef × Bool)) :
    scanTotal ((ref, found) :: visits) =
      (if found then ref.size else 0) + scanTotal visits := by
  cases found <;> simp [scanTotal]

theorem scanTotal_eq {test : ObjRef → Bool} {visits : List (ObjRef × Bool)}
    (htrue : ∀ visit ∈ visits, visit.2 = test visit.1) :
    scanTotal visits = totalSize test (visits.map Prod.fst) := by
  induction visits with
  | nil => rfl
  | cons visit visits ih =>
      obtain ⟨ref, found⟩ := visit
      have hhead : found = test ref := htrue (ref, found) List.mem_cons_self
      rw [scanTotal_cons, List.map_cons, totalSize_cons, hhead,
        ih fun visit hvisit => htrue visit (List.mem_cons_of_mem _ hvisit)]

theorem scanTotal_le_totalSize {test : ObjRef → Bool} {visits : List (ObjRef × Bool)}
    (hfound : ∀ visit ∈ visits, visit.2 = true → test visit.1 = true) :
    scanTotal visits ≤ totalSize test (visits.map Prod.fst) := by
  induction visits with
  | nil => exact le_rfl
  | cons visit visits ih =>
      obtain ⟨ref, found⟩ := visit
      have hrest := ih fun visit hvisit => hfound visit (List.mem_cons_of_mem _ hvisit)
      have hhead : found = true → test ref = true := hfound (ref, found) List.mem_cons_self
      rw [List.map_cons, totalSize_cons, scanTotal_cons]
      cases found with
      | false => simpa using hrest.trans (Nat.le_add_left ..)
      | true => simpa [hhead rfl] using hrest

theorem scanTotal_concat (ref : ObjRef) (found : Bool)
    (visits : List (ObjRef × Bool)) :
    scanTotal (visits ++ [(ref, found)]) =
      scanTotal visits + if found then ref.size else 0 := by
  cases found <;> simp [scanTotal]

/-- What is present was found by the scan or is unseen. -/
theorem totalSize_le (test : ObjRef → Bool) {refs : List ObjRef}
    {visits : List (ObjRef × Bool)} (hvisits : visits.map Prod.fst <+: refs) :
    totalSize test refs ≤ scanTotal visits + unseenSize test refs visits := by
  induction refs generalizing visits with
  | nil => simp
  | cons ref refs ih =>
      cases visits with
      | nil => simp [unseenSize]
      | cons visit visits =>
          obtain ⟨visited, found⟩ := visit
          rw [List.map_cons, List.cons_prefix_cons] at hvisits
          obtain ⟨rfl, hrest⟩ := hvisits
          have hbound := ih hrest
          rw [totalSize_cons, scanTotal_cons, unseenSize]
          cases test visited <;> cases found <;> simp <;> omega

theorem thresholdOf_pos {cacheSize : ℕ} (hcacheSize : 0 < cacheSize) :
    0 < thresholdOf cacheSize := by
  have hproduct : 0 < Library.Binary64.toDouble cacheSize * tenth :=
    Nat.mul_pos (Library.Binary64.toDouble_pos hcacheSize) (by decide)
  have hdouble := Library.Binary64.toDouble_pos hproduct
  rw [thresholdOf, Nat.ceilDiv_eq_add_pred_div]
  omega

namespace PagerPc

/-- Inside the block that the lock guard protects. -/
def InPass : PagerPc → Prop
  | .guard _ | .checkPresent _ _ | .swapIn _ _ | .unlock => True
  | .test | .lock | .stopped => False

/-- The comparison with the threshold has let the pager through. -/
def PastGuard : PagerPc → Prop
  | .checkPresent _ _ | .swapIn _ _ => True
  | _ => False

theorem PastGuard.inPass {pc : PagerPc} (hguarded : pc.PastGuard) : pc.InPass := by
  cases pc with
  | checkPresent ref rest | swapIn ref rest => trivial
  | _ => exact hguarded.elim

end PagerPc

variable (pointer : FarMemPtrMeta Meta) (pagerThread : Fin count)

/-- The scan in progress holds the mutex and its total is that of its visits. -/
def ScanOk (state : State Meta count numGcThreads) : Prop :=
  match state.memory with
  | .scan rest total visits => state.objectAddrsMut = some .memory ∧
      visits.map Prod.fst ++ rest = state.registry.objectRefs ∧
      total = scanTotal visits % 2 ^ 64
  | .store total visits => state.objectAddrsMut = some .memory ∧
      visits.map Prod.fst = state.registry.objectRefs ∧
      total = scanTotal visits % 2 ^ 64
  | .unlock => state.objectAddrsMut = some .memory
  | .test | .lock | .stopped => True

/-- `available_mem` is what the last completed scan made of its visits. -/
def AvailableOk (state : State Meta count numGcThreads) : Prop :=
  match state.lastScan with
  | none => state.availableMem = 0
  | some visits => visits.map Prod.fst <+: state.registry.objectRefs ∧
      state.availableMem = wrappedDifference state.cacheSize (scanTotal visits)

structure Inv (state : State Meta count numGcThreads) : Prop where
  cacheSize : state.cacheSize < 2 ^ 64
  swapThreshold : state.swapThreshold = thresholdOf state.cacheSize
  pass : state.pager.InPass → state.objectAddrsMut = some .pager
  guarded : state.pager.PastGuard → state.swapThreshold ≤ state.availableMem
  scan : ScanOk state
  available : AvailableOk state

variable {pointer pagerThread}
variable {state next : State Meta count numGcThreads}

theorem Started.inv (hstarted : Started pointer state) : Inv state where
  cacheSize := hstarted.cacheSize
  swapThreshold := hstarted.swapThreshold
  pass hpass := by
    rw [hstarted.pager] at hpass
    exact hpass.elim
  guarded hguarded := by
    rw [hstarted.pager] at hguarded
    exact hguarded.elim
  scan := by
    rw [ScanOk, hstarted.memory]
    trivial
  available := by
    rw [AvailableOk, hstarted.lastScan]
    exact hstarted.availableMem

/-- The far-memory state does not occur in the invariant. -/
theorem Inv.setFar (hinv : Inv state)
    (far : Protocol.State Meta count numGcThreads) :
    Inv { state with far := far } :=
  ⟨hinv.cacheSize, hinv.swapThreshold, hinv.pass, hinv.guarded, hinv.scan,
    hinv.available⟩

/-- The pager moves on while it keeps the mutex. -/
theorem Inv.setPager (hinv : Inv state)
    {far : Protocol.State Meta count numGcThreads} {pc : PagerPc}
    (hpass : state.pager.InPass)
    (hguarded : pc.PastGuard → state.swapThreshold ≤ state.availableMem) :
    Inv { state with far := far, pager := pc } :=
  ⟨hinv.cacheSize, hinv.swapThreshold, fun _ => hinv.pass hpass, hguarded,
    hinv.scan, hinv.available⟩

/-- With the mutex in other hands there is no scan in progress. -/
theorem ScanOk.of_owner (hscan : ScanOk state)
    (howner : state.objectAddrsMut ≠ some .memory)
    (hmemory : next.memory = state.memory) : ScanOk next := by
  unfold ScanOk at hscan ⊢
  rw [hmemory]
  cases hpc : state.memory with
  | test | lock | stopped => trivial
  | scan rest total visits =>
      rw [hpc] at hscan
      exact absurd hscan.1 howner
  | store total visits =>
      rw [hpc] at hscan
      exact absurd hscan.1 howner
  | unlock =>
      rw [hpc] at hscan
      exact absurd hscan howner

theorem Inv.pagerStep {objAddr : ℕ} (hinv : Inv state)
    (hstep : pagerStep pointer pagerThread state objAddr = some next) :
    Inv next := by
  cases pagerMove_of_pagerStep hstep with
  | test hpc =>
      constructor
      case cacheSize => exact hinv.cacheSize
      case swapThreshold => exact hinv.swapThreshold
      case pass =>
        intro hpass
        split at hpass <;> exact hpass.elim
      case guarded =>
        intro hguarded
        split at hguarded <;> exact hguarded.elim
      case scan => exact hinv.scan
      case available => exact hinv.available
  | lock hpc hfree =>
      constructor
      case cacheSize => exact hinv.cacheSize
      case swapThreshold => exact hinv.swapThreshold
      case pass => exact fun _ => rfl
      case guarded => exact False.elim
      case scan => exact hinv.scan.of_owner (by simp [hfree]) rfl
      case available => exact hinv.available
  | visited hpc => exact hinv.setPager (by rw [hpc]; trivial) False.elim
  | short ref rest hpc hshort => exact hinv.setPager (by rw [hpc]; trivial) False.elim
  | enough ref rest hpc henough =>
      exact hinv.setPager (by rw [hpc]; trivial) fun _ => henough
  | present ref rest hpc => exact hinv.setPager (by rw [hpc]; trivial) False.elim
  | call ref rest far hpc hcall =>
      have hguarded : state.swapThreshold ≤ state.availableMem :=
        hinv.guarded (by rw [hpc]; trivial)
      exact hinv.setPager (by rw [hpc]; trivial) fun _ => hguarded
  | finish ref rest far hpc hfinish => exact hinv.setPager (by rw [hpc]; trivial) False.elim
  | swapIn ref rest far hpc hswapIn => exact hinv.setFar far
  | unlock hpc =>
      have howner : state.objectAddrsMut = some .pager :=
        hinv.pass (by rw [hpc]; trivial)
      constructor
      case cacheSize => exact hinv.cacheSize
      case swapThreshold => exact hinv.swapThreshold
      case pass => exact False.elim
      case guarded => exact False.elim
      case scan => exact hinv.scan.of_owner (by simp [howner]) rfl
      case available => exact hinv.available

theorem ScanOk.visit {ref : ObjRef} {rest : List ObjRef} {total : ℕ}
    {visits : List (ObjRef × Bool)} {found : Bool} (hscan : ScanOk state)
    (hpc : state.memory = .scan (ref :: rest) total visits) :
    ScanOk { state with
      memory := .scan rest (if found then (total + ref.size) % 2 ^ 64 else total)
        (visits ++ [(ref, found)]) } := by
  rw [ScanOk, hpc] at hscan
  obtain ⟨howner, hvisits, htotal⟩ := hscan
  constructor
  · exact howner
  constructor
  · rw [← hvisits]
    simp
  · rw [scanTotal_concat]
    cases found with
    | false => simpa using htotal
    | true => simp [htotal]

theorem Inv.memoryStep (hinv : Inv state)
    (hstep : memoryStep pointer state = some next) : Inv next := by
  have hscan := hinv.scan
  -- while the memory thread has the mutex the pager is outside its block
  have houtside : state.objectAddrsMut = some .memory → ¬ state.pager.InPass := by
    intro howner hpass
    cases howner.symm.trans (hinv.pass hpass)
  cases memoryMove_of_memoryStep hstep with
  | test hpc =>
      exact {
        hinv with
        scan := by
          rw [ScanOk]
          cases state.dynamicManagerRunning <;> trivial }
  | lock hpc hfree =>
      exact {
        hinv with
        pass := fun hpass => by
          cases hfree.symm.trans (hinv.pass hpass)
        scan := ⟨rfl, rfl, rfl⟩ }
  | scanned total visits hpc =>
      rw [ScanOk, hpc] at hscan
      obtain ⟨howner, hvisits, htotal⟩ := hscan
      rw [List.append_nil] at hvisits
      exact { hinv with scan := ⟨howner, hvisits, htotal⟩ }
  | visit ref rest total visits hpc => exact { hinv with scan := hscan.visit hpc }
  | store total visits hpc =>
      rw [ScanOk, hpc] at hscan
      obtain ⟨howner, hvisits, htotal⟩ := hscan
      exact {
        hinv with
        guarded := fun hguarded => absurd hguarded.inPass (houtside howner)
        scan := howner
        available := ⟨hvisits ▸ List.prefix_rfl, by
          rw [wrappedDifference, htotal]⟩ }
  | unlock hpc =>
      rw [ScanOk, hpc] at hscan
      exact {
        hinv with
        pass := fun hpass => absurd hpass (houtside hscan)
        scan := trivial }

/-- A registration appends to the registry that no scan is reading. -/
theorem Inv.registerObject (hinv : Inv state)
    (hfree : state.objectAddrsMut = none) (ptr : Slot) (size : ℕ) :
    Inv { state with registry := state.registry.registerObject ptr size } where
  cacheSize := hinv.cacheSize
  swapThreshold := hinv.swapThreshold
  pass := hinv.pass
  guarded := hinv.guarded
  scan := hinv.scan.of_owner (by simp [hfree]) rfl
  available := by
    have havailable := hinv.available
    unfold AvailableOk at havailable ⊢
    cases hlast : state.lastScan with
    | none => simpa only [hlast] using havailable
    | some visits =>
        simp only [hlast] at havailable ⊢
        exact ⟨havailable.1.trans (List.prefix_append _ _), havailable.2⟩

theorem Inv.step {action : Action count numGcThreads Meta} (hinv : Inv state)
    (hstep : step pointer pagerThread state action = some next) : Inv next := by
  cases action with
  | far action =>
      simp only [Pager.step] at hstep
      split at hstep
      · cases hstep
      · obtain ⟨far, -, rfl⟩ := Option.map_eq_some_iff.mp hstep
        exact hinv.setFar far
  | assign ptr word object =>
      simp only [Pager.step] at hstep
      split at hstep <;> cases hstep
      exact hinv.setFar _
  | registerObject ptr size =>
      simp only [Pager.step] at hstep
      split at hstep <;> cases hstep
      rename_i hfree
      exact hinv.registerObject hfree ptr size
  | stopDynamicPager =>
      simp only [Pager.step, Option.some.injEq] at hstep
      subst hstep
      exact { hinv with }
  | pager objAddr => exact hinv.pagerStep hstep
  | memory => exact hinv.memoryStep hstep

theorem inv_of_reachable
    (hreachable : (machine pointer pagerThread).Reachable state) : Inv state :=
  hreachable.invariant Inv
    (fun {state} (hstarted : Started pointer state) => hstarted.inv)
    fun hinv _ hstep => hinv.step hstep

/-- A scan has visited every ref once and stores what is left of `cache_size`. -/
theorem Inv.stored (hinv : Inv state) {total : ℕ} {visits : List (ObjRef × Bool)}
    (hmemory : state.memory = .store total visits)
    (hstep : Pager.memoryStep pointer state = some next) :
    visits.map Prod.fst = state.registry.objectRefs ∧
      next.availableMem = wrappedDifference state.cacheSize (scanTotal visits) := by
  have hscan := hinv.scan
  rw [ScanOk, hmemory] at hscan
  obtain ⟨-, hvisits, htotal⟩ := hscan
  simp only [Pager.memoryStep, hmemory, Option.some.injEq] at hstep
  exact ⟨hvisits, by rw [← hstep, wrappedDifference, htotal]⟩

/-- `available_mem` is at least the threshold and is `cache_size` minus what the
last completed scan found present, in 64 bits.  Where that subtraction does not
wrap, what is present now leaves the threshold free up to the objects that the
scan did not find present. -/
def HasHeadroom (pointer : FarMemPtrMeta Meta)
    (state : State Meta count numGcThreads) : Prop :=
  state.swapThreshold = thresholdOf state.cacheSize ∧
    state.swapThreshold ≤ state.availableMem ∧
    ((state.lastScan = none ∧ state.cacheSize = 0) ∨
      ∃ visits, state.lastScan = some visits ∧
        state.availableMem =
          wrappedDifference state.cacheSize (scanTotal visits) ∧
        (scanTotal visits ≤ state.cacheSize →
          let present := fun ref : ObjRef => isPresent pointer state.far ref.ptr
          totalSize present state.registry.objectRefs + state.swapThreshold ≤
            state.cacheSize +
              unseenSize present state.registry.objectRefs visits))

/-- Whenever the pager is in a `swap_in`, the last scan vouches for headroom. -/
theorem headroom (hreachable : (machine pointer pagerThread).Reachable state)
    {ref : ObjRef} {rest : List ObjRef}
    (hpager : state.pager = .swapIn ref rest) : HasHeadroom pointer state := by
  have hinv := inv_of_reachable hreachable
  have hguarded : state.swapThreshold ≤ state.availableMem :=
    hinv.guarded (by rw [hpager]; trivial)
  have havailable := hinv.available
  unfold AvailableOk at havailable
  constructor
  · exact hinv.swapThreshold
  constructor
  · exact hguarded
  cases hlast : state.lastScan with
  | none =>
      left
      constructor
      · rfl
      · by_contra hcacheSize
        have hpositive := thresholdOf_pos (Nat.pos_of_ne_zero hcacheSize)
        rw [hlast] at havailable
        rw [← hinv.swapThreshold] at hpositive
        omega
  | some visits =>
      right
      rw [hlast] at havailable
      obtain ⟨hvisited, hdifference⟩ := havailable
      use visits
      constructor
      · rfl
      constructor
      · exact hdifference
      · intro htotal present
        have hbound := totalSize_le present hvisited
        rw [wrappedDifference_of_le hinv.cacheSize htotal] at hdifference
        omega

/-! ## A mutator beside the two threads -/

/-- A scan of the two refs, then the pager up to its first call. -/
def firstCallRun : List (Action 2 1 ℕ) :=
  List.replicate 7 .memory ++ List.replicate 4 (.pager 0)

/-- The same scan, a mutator's `swap_in` at 8, then the pager: it passes over
the object that is present and calls `swap_in` at 16. -/
def staleScanRun : List (Action 2 1 ℕ) :=
  List.replicate 7 .memory ++ Protocol.mutatorRun.map .far ++
    List.replicate 6 (.pager 0)

theorem run_firstCallRun :
    ∃ state, (machine (FarMemPtrMeta.pointerHpp 16) 1).run smallCache
        firstCallRun = some state ∧
      state.pager = .swapIn ⟨8, 950⟩ [⟨16, 950⟩] :=
  ⟨_, rfl, rfl⟩

theorem headroom_firstCallRun :
    ∃ state, (machine (FarMemPtrMeta.pointerHpp 16) 1).run smallCache
        firstCallRun = some state ∧
      HasHeadroom (FarMemPtrMeta.pointerHpp 16) state := by
  obtain ⟨state, hrun, hpager⟩ := run_firstCallRun
  exact ⟨state, hrun, headroom (.of_run started_smallCache hrun) hpager⟩

theorem run_staleScanRun :
    ∃ state, (machine (FarMemPtrMeta.pointerHpp 16) 1).run smallCache
        staleScanRun = some state ∧
      state.pager = .swapIn ⟨16, 950⟩ [] ∧ state.cacheSize = 1000 ∧
      state.swapThreshold = 100 ∧
      totalSize (fun ref => isPresent (FarMemPtrMeta.pointerHpp 16) state.far
        ref.ptr) state.registry.objectRefs = 950 :=
  ⟨_, rfl, by decide, rfl, rfl, by decide⟩

/-- The pager calls `swap_in` with 50 bytes free where the threshold is 100. -/
theorem not_forall_threshold_le :
    ¬ ∀ (pointer : FarMemPtrMeta ℕ) (state : State ℕ 2 1) (ref : ObjRef)
        (rest : List ObjRef),
      (machine pointer 1).Reachable state → state.pager = .swapIn ref rest →
      totalSize (fun ref => isPresent pointer state.far ref.ptr)
          state.registry.objectRefs + state.swapThreshold ≤ state.cacheSize := by
  intro hclaim
  obtain ⟨state, hrun, hpager, hcacheSize, hthreshold, htotal⟩ := run_staleScanRun
  have hfree := hclaim _ state _ _ (.of_run started_smallCache hrun) hpager
  rw [htotal, hthreshold, hcacheSize] at hfree
  exact absurd hfree (by decide)

end DynamicSwap.Pager
