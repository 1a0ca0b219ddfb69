import DynamicSwap.Pager.Budget
import DynamicSwap.Pager.Coverage

/-!
# What a scan can say

The scan of `dynamic_memory` tests one item after another while calls and the
collector move objects in and out, so its total need not be that of any moment.
Every visit is true of some moment of the scan, though, and so the total lies
between the items that were local throughout and those that were local at some
moment.
-/

namespace DynamicSwap.Pager

open Library

variable {Meta : Type} {count numGcThreads : ℕ}
variable (pointer : FarMemPtrMeta Meta) (pagerThread : Fin count)

section Scan

variable (start : State Meta count numGcThreads)
variable (actions : List (Action count numGcThreads Meta))

/-- Every visit found what was there at some moment of the run. -/
def Seen (visits : List (ObjRef × Bool)) : Prop :=
  ∀ visit ∈ visits, ∃ moment ahead,
    (machine pointer pagerThread).Moment start actions moment ahead ∧
      isPresent pointer moment.far visit.1.ptr = visit.2

/-- The scan in progress, which began after `start`, has seen its visits. -/
def ScanSeen (state : State Meta count numGcThreads) : Prop :=
  match state.memory with
  | .scan _ _ visits | .store _ visits => Seen pointer pagerThread start actions visits
  | .test | .lock | .unlock | .stopped => True

variable {pointer} {pagerThread} {start} {actions}
variable {state next : State Meta count numGcThreads} {visits : List (ObjRef × Bool)}

theorem Seen.append (hseen : Seen pointer pagerThread start actions visits)
    (more : List (Action count numGcThreads Meta)) :
    Seen pointer pagerThread start (actions ++ more) visits := by
  intro visit hvisit
  obtain ⟨moment, ahead, hmoment, hpresent⟩ := hseen visit hvisit
  exact ⟨moment, ahead ++ more, hmoment.append more, hpresent⟩

theorem ScanSeen.memoryStep {action : Action count numGcThreads Meta}
    (hseen : ScanSeen pointer pagerThread start actions state)
    (hrun : (machine pointer pagerThread).run start actions = some state)
    (hstep : memoryStep pointer state = some next) :
    ScanSeen pointer pagerThread start (actions ++ [action]) next := by
  cases memoryMove_of_memoryStep hstep with
  | test hpc =>
      unfold ScanSeen
      split_ifs <;> trivial
  | lock hpc hfree => exact fun visit hvisit => absurd hvisit List.not_mem_nil
  | scanned total visits hpc =>
      simp only [ScanSeen, hpc] at hseen
      exact hseen.append [action]
  | visit ref rest total visits hpc =>
      simp only [ScanSeen, hpc] at hseen
      intro visit hvisit
      rcases List.mem_append.mp hvisit with hbefore | hlast
      · exact hseen.append [action] visit hbefore
      · rw [List.mem_singleton.mp hlast]
        exact ⟨state, _, (Machine.Moment.here hrun).append [action], rfl⟩
  | store total visits hpc => trivial
  | unlock hpc => trivial

theorem ScanSeen.step {action : Action count numGcThreads Meta}
    (hseen : ScanSeen pointer pagerThread start actions state)
    (hrun : (machine pointer pagerThread).run start actions = some state)
    (hstep : step pointer pagerThread state action = some next) :
    ScanSeen pointer pagerThread start (actions ++ [action]) next := by
  by_cases hmemory : action = .memory
  · rw [hmemory] at hstep
    exact hseen.memoryStep hrun hstep
  · unfold ScanSeen at hseen ⊢
    rw [memory_of_step hmemory hstep]
    cases hpc : state.memory with
    | scan rest total visits | store total visits =>
        rw [hpc] at hseen
        exact Seen.append hseen [action]
    | test | lock | unlock | stopped => trivial

theorem scanSeen_of_run (hlock : start.memory = .lock)
    (hrun : (machine pointer pagerThread).run start actions = some state) :
    ScanSeen pointer pagerThread start actions state := by
  refine Machine.run_history (ScanSeen pointer pagerThread start) ?_ ?_ hrun
  · simp only [ScanSeen, hlock]
  · intro past state next action hpast hseen hstep
    exact hseen.step hpast hstep

end Scan

/-! ## Totals -/

theorem totalSize_le_scanTotal {test : ObjRef → Bool} {visits : List (ObjRef × Bool)}
    (hfound : ∀ visit ∈ visits, test visit.1 = true → visit.2 = true) :
    totalSize test (visits.map Prod.fst) ≤ scanTotal visits := by
  induction visits with
  | nil => exact le_rfl
  | cons visit visits ih =>
      obtain ⟨ref, found⟩ := visit
      have hrest := ih fun visit hvisit => hfound visit (List.mem_cons_of_mem _ hvisit)
      have hhead : test ref = true → found = true := hfound (ref, found) List.mem_cons_self
      rw [List.map_cons, totalSize_cons, scanTotal_cons]
      cases htest : test ref with
      | false => simpa using hrest.trans (Nat.le_add_left ..)
      | true => simpa [hhead htest] using hrest

variable {pointer} {pagerThread}

/-- What a scan stores in `available_mem` lies between `cache_size` minus the
items that were local at some moment of the scan and `cache_size` minus those
that were local throughout, as long as the former fit the cache. -/
theorem scan_between {start final next : State Meta count numGcThreads}
    {actions : List (Action count numGcThreads Meta)} {total : ℕ}
    {visits : List (ObjRef × Bool)} {always sometimes : ObjRef → Bool}
    (hreachable : (machine pointer pagerThread).Reachable start)
    (hlock : start.memory = .lock)
    (hrun : (machine pointer pagerThread).run start actions = some final)
    (hstore : final.memory = .store total visits)
    (halways : ∀ ref ∈ final.registry.objectRefs, always ref = true → ∀ moment ahead,
      (machine pointer pagerThread).Moment start actions moment ahead →
        isPresent pointer moment.far ref.ptr = true)
    (hsometimes : ∀ ref ∈ final.registry.objectRefs, ∀ moment ahead,
      (machine pointer pagerThread).Moment start actions moment ahead →
        isPresent pointer moment.far ref.ptr = true → sometimes ref = true)
    (hfits : totalSize sometimes final.registry.objectRefs ≤ final.cacheSize)
    (hstep : (machine pointer pagerThread).step final .memory = some next) :
    final.cacheSize ≤
        next.availableMem + totalSize sometimes final.registry.objectRefs ∧
      next.availableMem + totalSize always final.registry.objectRefs ≤ final.cacheSize := by
  have hseen := scanSeen_of_run hlock hrun
  simp only [ScanSeen, hstore] at hseen
  have hinv := inv_of_reachable (hreachable.run hrun)
  obtain ⟨hvisits, hstored⟩ := hinv.stored hstore hstep
  have hregistered : ∀ visit ∈ visits, visit.1 ∈ final.registry.objectRefs :=
    fun visit hvisit => hvisits ▸ List.mem_map_of_mem hvisit
  have hlower : totalSize always final.registry.objectRefs ≤ scanTotal visits := by
    rw [← hvisits]
    apply totalSize_le_scanTotal
    intro visit hvisit htest
    obtain ⟨moment, ahead, hmoment, hpresent⟩ := hseen visit hvisit
    rw [← hpresent]
    exact halways visit.1 (hregistered visit hvisit) htest moment ahead hmoment
  have hupper : scanTotal visits ≤ totalSize sometimes final.registry.objectRefs := by
    rw [← hvisits]
    apply scanTotal_le_totalSize
    intro visit hvisit hfound
    obtain ⟨moment, ahead, hmoment, hpresent⟩ := hseen visit hvisit
    exact hsometimes visit.1 (hregistered visit hvisit) moment ahead hmoment
      (hpresent.trans hfound)
  rw [wrappedDifference_of_le hinv.cacheSize (hupper.trans hfits)] at hstored
  omega

/-! ## One item local, one written back -/

/-- The memory thread alone moves no object. -/
theorem far_of_memory_run {start final : State Meta count numGcThreads}
    {actions : List (Action count numGcThreads Meta)}
    (hall : ∀ action ∈ actions, action = .memory)
    (hrun : (machine pointer pagerThread).run start actions = some final) :
    final.far = start.far := by
  induction actions generalizing start with
  | nil =>
      rw [Machine.run_nil, Option.some.injEq] at hrun
      rw [hrun]
  | cons action actions ih =>
      obtain ⟨next, hstep, hrest⟩ := Machine.run_cons.mp hrun
      rw [hall action List.mem_cons_self] at hstep
      rw [ih (fun other hother => hall other (List.mem_cons_of_mem _ hother)) hrest]
      exact memoryStep_far hstep

/-- After the pass the memory thread is about to take the mutex. -/
def beforeScanRun : List (Action 2 1 ℕ) :=
  scannedRun ++ displacingRun ++ [.pager 0, .memory]

def scanRun : List (Action 2 1 ℕ) :=
  List.replicate 4 .memory

theorem exists_scanRun :
    ∃ start final next,
      (machine (FarMemPtrMeta.pointerHpp 16) 1).run smallCache beforeScanRun = some start ∧
      (machine (FarMemPtrMeta.pointerHpp 16) 1).run start scanRun = some final ∧
      (machine (FarMemPtrMeta.pointerHpp 16) 1).step final .memory = some next ∧
      start.memory = .lock ∧
      final.memory = .store 950 [(⟨8, 950⟩, false), (⟨16, 950⟩, true)] ∧
      final.registry.objectRefs = [⟨8, 950⟩, ⟨16, 950⟩] ∧ final.cacheSize = 1000 ∧
      isPresent (FarMemPtrMeta.pointerHpp 16) start.far 8 = false ∧
      isPresent (FarMemPtrMeta.pointerHpp 16) start.far 16 = true :=
  ⟨_, _, _, rfl, rfl, rfl, rfl, rfl, rfl, rfl, by decide, by decide⟩

theorem scan_between_scanRun :
    ∃ start final next,
      (machine (FarMemPtrMeta.pointerHpp 16) 1).run start scanRun = some final ∧
      (machine (FarMemPtrMeta.pointerHpp 16) 1).step final .memory = some next ∧
      final.cacheSize ≤ next.availableMem +
          totalSize (fun ref => ref.ptr == 16) final.registry.objectRefs ∧
        next.availableMem +
          totalSize (fun ref => ref.ptr == 16) final.registry.objectRefs ≤
            final.cacheSize := by
  obtain ⟨start, final, next, hbefore, hrun, hstep, hlock, hstore, hrefs, hcacheSize,
    hfirst, hsecond⟩ := exists_scanRun
  have hfar : ∀ moment ahead, (machine (FarMemPtrMeta.pointerHpp 16) 1).Moment start scanRun
      moment ahead → moment.far = start.far := by
    rintro moment ahead ⟨past, hsplit, hpast⟩
    refine far_of_memory_run (fun action haction => ?_) hpast
    exact List.eq_of_mem_replicate (hsplit ▸ List.mem_append_left ahead haction)
  refine ⟨start, final, next, hrun, hstep, scan_between
    (.of_run started_smallCache hbefore) hlock hrun hstore ?_ ?_ ?_ hstep⟩
  · intro ref _ htest moment ahead hmoment
    rw [hfar moment ahead hmoment, eq_of_beq htest]
    exact hsecond
  · intro ref href moment ahead hmoment hpresent
    rw [hfar moment ahead hmoment] at hpresent
    rw [hrefs] at href
    simp only [List.mem_cons, List.not_mem_nil, or_false] at href
    rcases href with rfl | rfl
    · cases hfirst.symm.trans hpresent
    · rfl
  · rw [hrefs, hcacheSize]
    decide

end DynamicSwap.Pager
