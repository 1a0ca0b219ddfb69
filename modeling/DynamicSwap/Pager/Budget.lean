import DynamicSwap.Pager.Headroom
import DynamicSwap.Region.Construction

/-!
# The budget that a scan computes

Arrays come and go beside the pager and the memory thread: the constructor of a
`GenericArray` allocates and registers its items one by one, the destructor
leaves the registry alone.  `available_mem` is `cache_size` minus the scan's
total in 64 bits, without a comparison of the two.  The total stays within the
cache when the registry lists each slot once and the objects that were local
during the scan occupy at most `cache_size` bytes together; fitting in the
regions is not enough, because the cache is rounded up to whole regions.
-/

namespace DynamicSwap.Budget

open Pager (isPresent scanTotal totalSize wrappedDifference)

variable {Meta : Type} {count numGcThreads : ℕ}

/-- An array with the number of its items that are registered already. -/
structure Lifetime where
  array : GenericArray
  registered : ℕ
  deriving DecidableEq

/-- `cached` is ghost state: the pointers that were present at some moment since
the scan in progress took the mutex, or else those that are present. -/
structure State (Meta : Type) (count numGcThreads : ℕ) where
  threads : Pager.State Meta count numGcThreads
  arrays : List Lifetime
  cached : Slot → Bool

/-- `threads` is a step of the pager, the memory thread, the mutators or the
collector.  The other actions are those of `GenericArray`: `registerItem` is
one iteration of the constructor's loop, with the word and the object that
`allocate_generic_unique_ptr` returned. -/
inductive Action (count numGcThreads : ℕ) (Meta : Type)
  | threads (action : Pager.Action count numGcThreads Meta)
  | construct (array : GenericArray)
  | registerItem (index : ℕ) (word : Meta) (object : Protocol.Denoted)
  | destroy (index : ℕ)

/-- Actions that neither assign a pointer nor register one. -/
def runsThread : Pager.Action count numGcThreads Meta → Bool
  | .far _ | .stopDynamicPager | .pager _ | .memory => true
  | .assign _ _ _ | .registerObject _ _ => false

variable (pointer : FarMemPtrMeta Meta) (pagerThread : Fin count)

/-- `ptrs_[i] = allocate_generic_unique_ptr(..); register_object(&ptrs_[i], ..)`. -/
def registerItem (threads : Pager.State Meta count numGcThreads)
    (lifetime : Lifetime) (word : Meta) (object : Protocol.Denoted) :
    Option (Pager.State Meta count numGcThreads) :=
  let ptr := lifetime.array.slot lifetime.registered
  match Pager.step pointer pagerThread threads (.assign ptr word object) with
  | none => none
  | some threads =>
      Pager.step pointer pagerThread threads
        (.registerObject ptr lifetime.array.kItemSize)

/-- A scan is between its first visit and its store. -/
def scanning (threads : Pager.State Meta count numGcThreads) : Bool :=
  match threads.memory with
  | .scan _ _ _ | .store _ _ => true
  | _ => false

/-- The threads are at `threads` now. -/
def State.setThreads (state : State Meta count numGcThreads)
    (threads : Pager.State Meta count numGcThreads) : State Meta count numGcThreads :=
  { state with
    threads := threads
    cached := fun ptr =>
      (scanning threads && state.cached ptr) || isPresent pointer threads.far ptr }

def step (state : State Meta count numGcThreads) :
    Action count numGcThreads Meta → Option (State Meta count numGcThreads)
  | .threads action =>
      if runsThread action then
        (Pager.step pointer pagerThread state.threads action).map
          (state.setThreads pointer)
      else none
  | .construct array =>
      if ∀ lifetime ∈ state.arrays, array.BlocksDisjoint lifetime.array then
        some { state with arrays := state.arrays ++ [⟨array, 0⟩] }
      else none
  | .registerItem index word object =>
      match state.arrays[index]? with
      | none => none
      | some lifetime =>
          if lifetime.registered < lifetime.array.kNumItems then
            (registerItem pointer pagerThread state.threads lifetime word
              object).map fun threads =>
                { state.setThreads pointer threads with
                  arrays := state.arrays.set index
                    { lifetime with registered := lifetime.registered + 1 } }
          else none
  | .destroy index =>
      match state.arrays[index]? with
      | none => none
      | some lifetime =>
          if lifetime.registered = lifetime.array.kNumItems then
            some { state with arrays := state.arrays.eraseIdx index }
          else none

/-- `init_dynamic_pager` with nothing registered yet. -/
structure Started (state : State Meta count numGcThreads) : Prop where
  threads : Pager.Started pointer state.threads
  registry : state.threads.registry = Registry.empty
  arrays : state.arrays = []
  cached : state.cached = isPresent pointer state.threads.far

def machine : Library.Machine (State Meta count numGcThreads)
    (Action count numGcThreads Meta) where
  initial := Started pointer
  step := step pointer pagerThread

/-- Registered slots, each once. -/
def slotsOf (threads : Pager.State Meta count numGcThreads) : List Slot :=
  (threads.registry.objectRefs.map ObjRef.ptr).dedup

/-- Bytes of the objects behind the registered pointers that satisfy a test. -/
def bytesOf (test : Slot → Bool) (threads : Pager.State Meta count numGcThreads) : ℕ :=
  (((slotsOf threads).filter test).map fun ptr =>
    (threads.far.denotes ptr).objectSize).sum

/-- No array with items is destroyed, an item is not larger than its object, and
the objects that were local at some moment of a scan occupy at most `cache_size`
bytes when it stores its result. -/
structure Solvent (state : State Meta count numGcThreads)
    (action : Action count numGcThreads Meta) : Prop where
  destroyed : ∀ index lifetime, action = .destroy index →
    state.arrays[index]? = some lifetime → lifetime.array.kNumItems = 0
  sized : ∀ index word object lifetime, action = .registerItem index word object →
    state.arrays[index]? = some lifetime →
      lifetime.array.kItemSize ≤ object.objectSize
  fits : ∀ total visits, action = .threads .memory →
    state.threads.memory = .store total visits →
      bytesOf state.cached state.threads ≤ state.threads.cacheSize

/-- What solvent runs keep of the registry. -/
structure Listed (threads : Pager.State Meta count numGcThreads)
    (arrays : List Lifetime) : Prop where
  once : (threads.registry.objectRefs.map ObjRef.ptr).Nodup
  owned : ∀ ref ∈ threads.registry.objectRefs, ∃ lifetime ∈ arrays,
    ∃ index < lifetime.registered, lifetime.array.slot index = ref.ptr
  blocks : (arrays.map Lifetime.array).Pairwise GenericArray.BlocksDisjoint
  registered : ∀ lifetime ∈ arrays, lifetime.registered ≤ lifetime.array.kNumItems
  sized : ∀ ref ∈ threads.registry.objectRefs,
    ref.size ≤ (threads.far.denotes ref.ptr).objectSize

/-- What the scan in progress has found present was local during the scan. -/
def FoundCached (state : State Meta count numGcThreads) : Prop :=
  match state.threads.memory with
  | .scan _ _ visits | .store _ visits =>
      ∀ visit ∈ visits, visit.2 = true → state.cached visit.1.ptr = true
  | _ => True

variable {pointer pagerThread}
variable {threads after : Pager.State Meta count numGcThreads}
variable {state next : State Meta count numGcThreads}
variable {arrays : List Lifetime}

/-! ## Steps -/

theorem threads_frame {action : Pager.Action count numGcThreads Meta}
    (hruns : runsThread action = true)
    (hstep : Pager.step pointer pagerThread threads action = some after) :
    after.registry = threads.registry ∧
      after.far.denotes = threads.far.denotes := by
  cases action with
  | far action =>
      simp only [Pager.step] at hstep
      split at hstep
      · cases hstep
      · obtain ⟨far, hfar, rfl⟩ := Option.map_eq_some_iff.mp hstep
        exact ⟨rfl, Protocol.denotes_of_step hfar⟩
  | assign ptr word object | registerObject ptr size => cases hruns
  | stopDynamicPager =>
      cases hstep
      exact ⟨rfl, rfl⟩
  | pager objAddr =>
      exact ⟨(Pager.pagerStep_frame hstep).1, Pager.pagerStep_denotes hstep⟩
  | memory =>
      constructor
      · exact Pager.memoryStep_registry hstep
      · rw [Pager.memoryStep_far hstep]

theorem registerItem_eq_some {lifetime : Lifetime} {word : Meta}
    {object : Protocol.Denoted}
    (hstep : registerItem pointer pagerThread threads lifetime word object =
      some after) :
    threads.objectAddrsMut = none ∧
      after = { threads with
        far := threads.far.assign (lifetime.array.slot lifetime.registered) word
          object
        registry := threads.registry.registerObject
          (lifetime.array.slot lifetime.registered) lifetime.array.kItemSize } := by
  simp only [registerItem, Pager.step] at hstep
  split at hstep
  · cases hstep
  rename_i assigned hassign
  split at hassign <;> cases hassign
  split at hstep <;> cases hstep
  rename_i hfree
  exact ⟨hfree, rfl⟩

theorem step_threads_eq_some {action : Pager.Action count numGcThreads Meta}
    (hstep : step pointer pagerThread state (.threads action) = some next) :
    runsThread action = true ∧
      Pager.step pointer pagerThread state.threads action = some next.threads ∧
      next = state.setThreads pointer next.threads := by
  simp only [step] at hstep
  split at hstep
  · rename_i hruns
    obtain ⟨threads, hthreads, rfl⟩ := Option.map_eq_some_iff.mp hstep
    exact ⟨hruns, hthreads, rfl⟩
  · cases hstep

theorem step_construct_eq_some {array : GenericArray}
    (hstep : step pointer pagerThread state (.construct array) = some next) :
    (∀ lifetime ∈ state.arrays, array.BlocksDisjoint lifetime.array) ∧
      next = { state with arrays := state.arrays ++ [⟨array, 0⟩] } := by
  simp only [step] at hstep
  split at hstep
  · rename_i hblocks
    cases hstep
    exact ⟨hblocks, rfl⟩
  · cases hstep

theorem step_registerItem_eq_some {index : ℕ} {word : Meta}
    {object : Protocol.Denoted}
    (hstep : step pointer pagerThread state (.registerItem index word object) =
      some next) :
    ∃ lifetime, state.arrays[index]? = some lifetime ∧
      lifetime.registered < lifetime.array.kNumItems ∧
      registerItem pointer pagerThread state.threads lifetime word object =
        some next.threads ∧
      next = { state.setThreads pointer next.threads with
        arrays := state.arrays.set index
          { lifetime with registered := lifetime.registered + 1 } } := by
  simp only [step] at hstep
  split at hstep
  · cases hstep
  rename_i lifetime hlifetime
  split at hstep
  · rename_i hmore
    obtain ⟨threads, hthreads, rfl⟩ := Option.map_eq_some_iff.mp hstep
    exact ⟨lifetime, hlifetime, hmore, hthreads, rfl⟩
  · cases hstep

theorem step_destroy_eq_some {index : ℕ}
    (hstep : step pointer pagerThread state (.destroy index) = some next) :
    ∃ lifetime, state.arrays[index]? = some lifetime ∧
      next = { state with arrays := state.arrays.eraseIdx index } := by
  simp only [step] at hstep
  split at hstep
  · cases hstep
  rename_i lifetime hlifetime
  split at hstep <;> cases hstep
  exact ⟨lifetime, hlifetime, rfl⟩

/-- The pager's invariant holds beside any array operations. -/
theorem inv_of_step {action : Action count numGcThreads Meta}
    (hinv : Pager.Inv state.threads)
    (hstep : step pointer pagerThread state action = some next) :
    Pager.Inv next.threads := by
  cases action with
  | threads action =>
      obtain ⟨-, hthreads, -⟩ := step_threads_eq_some hstep
      exact hinv.step hthreads
  | construct array =>
      obtain ⟨-, rfl⟩ := step_construct_eq_some hstep
      exact hinv
  | registerItem index word object =>
      obtain ⟨lifetime, -, -, hregister, -⟩ := step_registerItem_eq_some hstep
      obtain ⟨hfree, hthreads⟩ := registerItem_eq_some hregister
      rw [hthreads]
      have hassigned := hinv.setFar (state.threads.far.assign
        (lifetime.array.slot lifetime.registered) word object)
      exact hassigned.registerObject hfree
        (lifetime.array.slot lifetime.registered) lifetime.array.kItemSize
  | destroy index =>
      obtain ⟨lifetime, -, rfl⟩ := step_destroy_eq_some hstep
      exact hinv

theorem inv_of_reachable
    {allowed : State Meta count numGcThreads →
      Action count numGcThreads Meta → Prop}
    (hreachable : (machine pointer pagerThread).ReachableUnder allowed state) :
    Pager.Inv state.threads :=
  hreachable.invariant (fun state => Pager.Inv state.threads)
    (fun {state} (hstarted : Started pointer state) => hstarted.threads.inv)
    fun hinv _ hstep => inv_of_step hinv hstep

/-! ## What the registry lists -/

theorem Listed.congr (hlisted : Listed threads arrays)
    (hregistry : after.registry = threads.registry)
    (hdenotes : after.far.denotes = threads.far.denotes) :
    Listed after arrays where
  once := hregistry ▸ hlisted.once
  owned := hregistry ▸ hlisted.owned
  blocks := hlisted.blocks
  registered := hlisted.registered
  sized := by
    rw [hregistry, hdenotes]
    exact hlisted.sized

theorem Listed.construct {array : GenericArray} (hlisted : Listed threads arrays)
    (hblocks : ∀ lifetime ∈ arrays, array.BlocksDisjoint lifetime.array) :
    Listed threads (arrays ++ [⟨array, 0⟩]) where
  once := hlisted.once
  owned ref href := by
    obtain ⟨lifetime, hlifetime, howned⟩ := hlisted.owned ref href
    exact ⟨lifetime, List.mem_append_left _ hlifetime, howned⟩
  blocks := by
    rw [List.map_append, List.pairwise_append]
    refine ⟨hlisted.blocks, List.pairwise_singleton _ _, ?_⟩
    intro other hother new hnew
    obtain ⟨lifetime, hlifetime, rfl⟩ := List.mem_map.mp hother
    rw [List.mem_singleton.mp hnew]
    exact (hblocks lifetime hlifetime).symm
  registered lifetime hlifetime := by
    rcases List.mem_append.mp hlifetime with hold | hnew
    · exact hlisted.registered lifetime hold
    · rw [List.mem_singleton.mp hnew]
      exact Nat.zero_le _
  sized := hlisted.sized

/-- An array without items owns no entry. -/
theorem Listed.destroy {index : ℕ} {lifetime : Lifetime}
    (hlisted : Listed threads arrays) (hlifetime : arrays[index]? = some lifetime)
    (hempty : lifetime.array.kNumItems = 0) :
    Listed threads (arrays.eraseIdx index) where
  once := hlisted.once
  owned ref href := by
    obtain ⟨owner, howner, position, hposition, hslot⟩ := hlisted.owned ref href
    refine ⟨owner, ?_, position, hposition, hslot⟩
    obtain ⟨place, hplace⟩ := List.mem_iff_getElem?.mp howner
    rw [List.mem_eraseIdx_iff_getElem?]
    refine ⟨place, ?_, hplace⟩
    rintro rfl
    cases hlifetime.symm.trans hplace
    have hbound := hlisted.registered lifetime howner
    omega
  blocks := hlisted.blocks.sublist ((List.eraseIdx_sublist _ _).map _)
  registered owner howner :=
    hlisted.registered owner (List.mem_of_mem_eraseIdx howner)
  sized := hlisted.sized

theorem Listed.blocksDisjoint {left right : ℕ} {first second : Lifetime}
    (hlisted : Listed threads arrays) (hne : left ≠ right)
    (hfirst : arrays[left]? = some first) (hsecond : arrays[right]? = some second) :
    first.array.BlocksDisjoint second.array := by
  have hblocks := List.pairwise_map.mp hlisted.blocks
  rw [List.pairwise_iff_getElem] at hblocks
  obtain ⟨hleft, rfl⟩ := List.getElem?_eq_some_iff.mp hfirst
  obtain ⟨hright, rfl⟩ := List.getElem?_eq_some_iff.mp hsecond
  rcases Nat.lt_or_gt_of_ne hne with hlt | hlt
  · exact hblocks left right hleft hright hlt
  · exact (hblocks right left hright hleft hlt).symm

/-- The next slot of an array under construction is not registered yet. -/
theorem Listed.slot_notMem {index : ℕ} {lifetime : Lifetime}
    (hlisted : Listed threads arrays) (hlifetime : arrays[index]? = some lifetime)
    (hmore : lifetime.registered < lifetime.array.kNumItems) {ref : ObjRef}
    (href : ref ∈ threads.registry.objectRefs) :
    ref.ptr ≠ lifetime.array.slot lifetime.registered := by
  intro heq
  obtain ⟨owner, howner, position, hposition, hslot⟩ := hlisted.owned ref href
  obtain ⟨place, hplace⟩ := List.mem_iff_getElem?.mp howner
  have hbound := hlisted.registered owner howner
  by_cases hsame : place = index
  · subst place
    cases hlifetime.symm.trans hplace
    have hsame : lifetime.array.slot position =
        lifetime.array.slot lifetime.registered := hslot.trans heq
    simp only [GenericArray.slot, GenericArray.kSlotSize] at hsame
    omega
  · have hdisjoint := GenericArray.disjoint_slots
      (hlisted.blocksDisjoint hsame hplace hlifetime)
    have hleft : ref.ptr ∈ owner.array.slots :=
      GenericArray.mem_slots.mpr ⟨position, by omega, hslot⟩
    exact hdisjoint hleft (GenericArray.mem_slots.mpr ⟨_, hmore, heq.symm⟩)

theorem map_array_set {index : ℕ} {lifetime : Lifetime} {registered : ℕ}
    (hlifetime : arrays[index]? = some lifetime) :
    (arrays.set index { lifetime with registered := registered }).map
      Lifetime.array = arrays.map Lifetime.array := by
  apply List.ext_getElem?
  intro place
  rw [List.getElem?_map, List.getElem?_map, List.getElem?_set]
  split
  · rename_i heq
    subst heq
    obtain ⟨hlt, rfl⟩ := List.getElem?_eq_some_iff.mp hlifetime
    simp [hlt]
  · rfl

theorem Listed.registerItem {index : ℕ} {lifetime : Lifetime} {word : Meta}
    {object : Protocol.Denoted} (hlisted : Listed threads arrays)
    (hlifetime : arrays[index]? = some lifetime)
    (hmore : lifetime.registered < lifetime.array.kNumItems)
    (hsized : lifetime.array.kItemSize ≤ object.objectSize) :
    Listed { threads with
      far := threads.far.assign (lifetime.array.slot lifetime.registered) word object
      registry := threads.registry.registerObject
        (lifetime.array.slot lifetime.registered) lifetime.array.kItemSize }
      (arrays.set index { lifetime with registered := lifetime.registered + 1 }) where
  once := by
    simp only [Registry.registerObject, List.map_append, List.map_cons,
      List.map_nil]
    refine List.Nodup.append hlisted.once (List.nodup_singleton _) ?_
    intro ptr hold hnew
    obtain ⟨ref, href, rfl⟩ := List.mem_map.mp hold
    exact hlisted.slot_notMem hlifetime hmore href (List.mem_singleton.mp hnew)
  owned ref href := by
    obtain ⟨hlt, -⟩ := List.getElem?_eq_some_iff.mp hlifetime
    have hnew : { lifetime with registered := lifetime.registered + 1 } ∈
        arrays.set index { lifetime with registered := lifetime.registered + 1 } :=
      List.mem_set hlt _
    rcases List.mem_append.mp href with hold | hlast
    · obtain ⟨owner, howner, position, hposition, hslot⟩ := hlisted.owned ref hold
      obtain ⟨place, hplace⟩ := List.mem_iff_getElem?.mp howner
      by_cases hsame : place = index
      · subst place
        cases hlifetime.symm.trans hplace
        exact ⟨_, hnew, position, Nat.lt_succ_of_lt hposition, hslot⟩
      · refine ⟨owner, ?_, position, hposition, hslot⟩
        apply List.mem_iff_getElem?.mpr
        exact ⟨place, by rw [List.getElem?_set_ne (Ne.symm hsame), hplace]⟩
    · rw [List.mem_singleton.mp hlast]
      exact ⟨_, hnew, lifetime.registered, Nat.lt_succ_self _, rfl⟩
  blocks := by
    rw [map_array_set hlifetime]
    exact hlisted.blocks
  registered owner howner := by
    rcases List.mem_or_eq_of_mem_set howner with hold | rfl
    · exact hlisted.registered owner hold
    · exact hmore
  sized ref href := by
    rcases List.mem_append.mp href with hold | hlast
    · have hne := hlisted.slot_notMem hlifetime hmore hold
      have hdenotes : (threads.far.assign (lifetime.array.slot lifetime.registered)
          word object).denotes ref.ptr = threads.far.denotes ref.ptr :=
        Function.update_of_ne hne ..
      rw [hdenotes]
      exact hlisted.sized ref hold
    · rw [List.mem_singleton.mp hlast]
      have hdenotes : (threads.far.assign (lifetime.array.slot lifetime.registered)
          word object).denotes (lifetime.array.slot lifetime.registered) = object :=
        Function.update_self ..
      rw [hdenotes]
      exact hsized

theorem Listed.step {action : Action count numGcThreads Meta}
    (hlisted : Listed state.threads state.arrays)
    (hsolvent : Solvent state action)
    (hstep : step pointer pagerThread state action = some next) :
    Listed next.threads next.arrays := by
  cases action with
  | threads action =>
      obtain ⟨hruns, hthreads, hnext⟩ := step_threads_eq_some hstep
      obtain ⟨hregistry, hdenotes⟩ := threads_frame hruns hthreads
      rw [hnext]
      exact hlisted.congr hregistry hdenotes
  | construct array =>
      obtain ⟨hblocks, rfl⟩ := step_construct_eq_some hstep
      exact hlisted.construct hblocks
  | registerItem index word object =>
      obtain ⟨lifetime, hlifetime, hmore, hregister, hnext⟩ :=
        step_registerItem_eq_some hstep
      obtain ⟨-, hthreads⟩ := registerItem_eq_some hregister
      rw [hnext, hthreads]
      exact hlisted.registerItem hlifetime hmore
        (hsolvent.sized index word object lifetime rfl hlifetime)
  | destroy index =>
      obtain ⟨lifetime, hlifetime, rfl⟩ := step_destroy_eq_some hstep
      exact hlisted.destroy hlifetime
        (hsolvent.destroyed index lifetime rfl hlifetime)

/-! ## What the scan sees -/

theorem cached_setThreads {ptr : Slot}
    (hpresent : isPresent pointer after.far ptr = true) :
    (state.setThreads pointer after).cached ptr = true := by
  simp [State.setThreads, hpresent]

theorem cached_setThreads_of_scanning {ptr : Slot} (hscanning : scanning after = true)
    (hcached : state.cached ptr = true) :
    (state.setThreads pointer after).cached ptr = true := by
  simp [State.setThreads, hscanning, hcached]

theorem FoundCached.setThreads (hfound : FoundCached state)
    (hmemory : after.memory = state.threads.memory) :
    FoundCached (state.setThreads pointer after) := by
  unfold FoundCached at hfound ⊢
  rw [State.setThreads, hmemory]
  cases hpc : state.threads.memory with
  | scan rest total visits | store total visits =>
      rw [hpc] at hfound
      have hscanning : scanning after = true := by rw [scanning, hmemory, hpc]
      exact fun visit hvisit hpresent =>
        cached_setThreads_of_scanning hscanning (hfound visit hvisit hpresent)
  | _ => trivial

/-- A step of the memory thread records what it sees. -/
theorem FoundCached.memoryStep (hfound : FoundCached state)
    (hstep : Pager.memoryStep pointer state.threads = some after) :
    FoundCached (state.setThreads pointer after) := by
  unfold FoundCached at hfound
  cases Pager.memoryMove_of_memoryStep hstep with
  | test hpc =>
      unfold FoundCached
      cases hrunning : state.threads.dynamicManagerRunning <;>
        simp [State.setThreads]
  | lock hpc hfree => exact fun visit hvisit => absurd hvisit List.not_mem_nil
  | scanned total visits hpc =>
      rw [hpc] at hfound
      exact fun visit hvisit hpresent =>
        cached_setThreads_of_scanning rfl (hfound visit hvisit hpresent)
  | visit ref rest total visits hpc =>
      rw [hpc] at hfound
      intro visit hvisit hpresent
      rcases List.mem_append.mp hvisit with hold | hnew
      · exact cached_setThreads_of_scanning rfl (hfound visit hold hpresent)
      · rw [List.mem_singleton.mp hnew] at hpresent ⊢
        exact cached_setThreads hpresent
  | store total visits hpc => trivial
  | unlock hpc => trivial

theorem FoundCached.step {action : Action count numGcThreads Meta}
    (hfound : FoundCached state)
    (hstep : step pointer pagerThread state action = some next) :
    FoundCached next := by
  cases action with
  | threads action =>
      obtain ⟨-, hthreads, hnext⟩ := step_threads_eq_some hstep
      rw [hnext]
      by_cases hmemory : action = .memory
      · rw [hmemory] at hthreads
        exact hfound.memoryStep hthreads
      · exact hfound.setThreads (Pager.memory_of_step hmemory hthreads)
  | construct array =>
      obtain ⟨-, rfl⟩ := step_construct_eq_some hstep
      exact hfound
  | registerItem index word object =>
      obtain ⟨lifetime, -, -, hregister, hnext⟩ := step_registerItem_eq_some hstep
      obtain ⟨-, hthreads⟩ := registerItem_eq_some hregister
      have hset : FoundCached (state.setThreads pointer next.threads) :=
        hfound.setThreads (by rw [hthreads])
      rw [hnext]
      exact hset
  | destroy index =>
      obtain ⟨lifetime, -, rfl⟩ := step_destroy_eq_some hstep
      exact hfound

/-- Everything a solvent run keeps. -/
structure SolventInv (state : State Meta count numGcThreads) : Prop where
  inv : Pager.Inv state.threads
  listed : Listed state.threads state.arrays
  found : FoundCached state

theorem Started.solventInv (hstarted : Started pointer state) : SolventInv state where
  inv := hstarted.threads.inv
  listed := by
    constructor
    · simp [hstarted.registry, Registry.empty]
    · simp [hstarted.registry, Registry.empty]
    · simp [hstarted.arrays]
    · simp [hstarted.arrays]
    · simp [hstarted.registry, Registry.empty]
  found := by
    rw [FoundCached, hstarted.threads.memory]
    trivial

theorem solventInv_of_reachable
    (hreachable : (machine pointer pagerThread).ReachableUnder Solvent state) :
    SolventInv state :=
  hreachable.invariant SolventInv
    (fun {state} (hstarted : Started pointer state) => hstarted.solventInv)
    fun hkept hsolvent hstep =>
      ⟨inv_of_step hkept.inv hstep, hkept.listed.step hsolvent hstep,
        hkept.found.step hstep⟩

/-! ## The total -/

/-- Slots listed once, each no larger than its object: the registered bytes are
bounded by the objects' bytes. -/
theorem totalSize_le_bytesOf (hlisted : Listed threads arrays) (test : Slot → Bool) :
    totalSize (fun ref => test ref.ptr) threads.registry.objectRefs ≤
      bytesOf test threads := by
  rw [bytesOf, slotsOf, List.dedup_eq_self.mpr hlisted.once, List.filter_map,
    List.map_map, totalSize]
  apply List.sum_le_sum
  intro ref href
  exact hlisted.sized ref (List.mem_filter.mp href).1

/-- What a scan stores is `cache_size` minus its total in 64 bits, over every ref
once: the true difference exactly when the total is at most `cache_size`. -/
theorem stored_of_reachable (hreachable : (machine pointer pagerThread).Reachable state)
    {total : ℕ} {visits : List (ObjRef × Bool)}
    (hmemory : state.threads.memory = .store total visits)
    (hstep : step pointer pagerThread state (.threads .memory) = some next) :
    visits.map Prod.fst = state.threads.registry.objectRefs ∧
      next.threads.availableMem =
        wrappedDifference state.threads.cacheSize (scanTotal visits) ∧
      (next.threads.availableMem + scanTotal visits = state.threads.cacheSize ↔
        scanTotal visits ≤ state.threads.cacheSize) := by
  have hinv := inv_of_reachable hreachable
  obtain ⟨-, hthreads, -⟩ := step_threads_eq_some hstep
  obtain ⟨hvisits, hstored⟩ := hinv.stored hmemory hthreads
  refine ⟨hvisits, hstored, ?_⟩
  constructor
  · intro hdifference
    omega
  · intro hle
    rw [hstored, Pager.wrappedDifference_of_le hinv.cacheSize hle]
    omega

/-- In solvent runs the budget does not wrap: every scan counts each ref of
`object_refs` once, its total is at most `cache_size`, and what it stores is the
true difference. -/
theorem budget
    (hreachable : (machine pointer pagerThread).ReachableUnder Solvent state)
    {total : ℕ} {visits : List (ObjRef × Bool)}
    (hmemory : state.threads.memory = .store total visits)
    (hsolvent : Solvent state (.threads .memory))
    (hstep : step pointer pagerThread state (.threads .memory) = some next) :
    visits.map Prod.fst = state.threads.registry.objectRefs ∧
      scanTotal visits ≤ state.threads.cacheSize ∧
      next.threads.availableMem + scanTotal visits = state.threads.cacheSize := by
  obtain ⟨hvisits, -, hdifference⟩ :=
    stored_of_reachable (hreachable.mono fun _ => trivial) hmemory hstep
  have hkept := solventInv_of_reachable hreachable
  have hfound := hkept.found
  rw [FoundCached, hmemory] at hfound
  have hle : scanTotal visits ≤ state.threads.cacheSize :=
    calc scanTotal visits
        ≤ totalSize (fun ref => state.cached ref.ptr) (visits.map Prod.fst) :=
          Pager.scanTotal_le_totalSize hfound
      _ = totalSize (fun ref => state.cached ref.ptr)
            state.threads.registry.objectRefs := by rw [hvisits]
      _ ≤ bytesOf state.cached state.threads := totalSize_le_bytesOf hkept.listed _
      _ ≤ state.threads.cacheSize := hsolvent.fits total visits rfl hmemory
  exact ⟨hvisits, hle, hdifference.mpr hle⟩

/-! ## Items of 900 bytes and a cache of 4097 -/

/-- The objects of the registered pointers that are present have a place in the
payloads of the regions that the constructor carved. -/
def FitsRegions (pointer : FarMemPtrMeta Meta) (manager : RegionManager)
    (threads : Pager.State Meta count numGcThreads) : Prop :=
  ∃ place : Slot → ℕ,
    (∀ ptr ∈ slotsOf threads, isPresent pointer threads.far ptr = true →
      place ptr ∈ manager.indices) ∧
    ∀ idx, (((slotsOf threads).filter fun ptr =>
        isPresent pointer threads.far ptr && place ptr == idx).map
      fun ptr => (threads.far.denotes ptr).objectSize).sum ≤
        Region.kSize - Region.kHeaderSize

def emptyCache : State ℕ 2 1 where
  threads := { Pager.smallCache with
    registry := Registry.empty
    cacheSize := 4097
    swapThreshold := 410 }
  arrays := []
  cached := isPresent (FarMemPtrMeta.pointerHpp 16) Pager.smallCache.far

theorem started_emptyCache :
    Started (FarMemPtrMeta.pointerHpp 16) emptyCache where
  threads := {
    Pager.started_smallCache with
    cacheSize := by decide
    swapThreshold := by decide }
  registry := rfl
  arrays := rfl
  cached := rfl

/-- 900 bytes of data, a header and the id. -/
def itemObject (index : ℕ) : Protocol.Denoted where
  dsId := 0
  objectSize := 918
  objId := index % 2 ^ 38
  dsId_lt := Protocol.zero_lt_dsIds
  objectSize_pos := by decide
  objectSize_lt := by decide
  objId_lt := Nat.mod_lt _ Protocol.zero_lt_objIds

/-- An array of `items`, each item alone in its region, and a scan of it. -/
def fillRun (items : ℕ) : List (Action 2 1 ℕ) :=
  .construct ⟨64, 900, items⟩ ::
    (List.range items).map (fun index => .registerItem 0
      ((FarMemPtrMeta.pointerHpp 16).setPresent 0 (1024 * index + 6))
      (itemObject index)) ++
    List.replicate (items + 3) (.threads .memory)

/-- Nothing is destroyed, items fit their objects, and what was local during a
scan fits the cache. -/
def solventCheck (state : State ℕ 2 1) : Action 2 1 ℕ → Bool
  | .destroy _ => false
  | .registerItem _ _ object =>
      state.arrays.all fun lifetime => lifetime.array.kItemSize ≤ object.objectSize
  | .threads .memory => bytesOf state.cached state.threads ≤ state.threads.cacheSize
  | _ => true

theorem solvent_of_solventCheck {state : State ℕ 2 1} {action : Action 2 1 ℕ}
    (hcheck : solventCheck state action = true) : Solvent state action where
  destroyed index lifetime haction := by
    subst haction
    cases hcheck
  sized index word object lifetime haction hlifetime := by
    subst haction
    simp only [solventCheck, List.all_eq_true, decide_eq_true_eq] at hcheck
    exact hcheck lifetime (List.mem_of_getElem? hlifetime)
  fits total visits haction _ := by
    subst haction
    exact of_decide_eq_true hcheck

/-- The collector writes the first item back after the scan of `fillRun` has found
it present. -/
def writtenBackRun : List (Action 2 1 ℕ) :=
  (fillRun 4).take 9 ++
    [.startMarking, .pick 0 64, .work 0 none, .work 0 none, .work 0 none, .flipStatus,
      .startWriting, .pick 0 64, .work 0 none, .work 0 none, .work 0 none,
      .work 0 none].map (fun action => .threads (.far action)) ++
    List.replicate 3 (.threads .memory)

theorem run_writtenBackRun :
    ∃ state next, (machine (FarMemPtrMeta.pointerHpp 16) 1).run emptyCache writtenBackRun =
        some state ∧
      step (FarMemPtrMeta.pointerHpp 16) 1 state (.threads .memory) = some next ∧
      (∃ visits, state.threads.memory = .store 3600 visits) ∧
      isPresent (FarMemPtrMeta.pointerHpp 16) state.threads.far 64 = false ∧
      solventCheck state (.threads .memory) = true :=
  ⟨_, _, rfl, rfl, ⟨_, rfl⟩, by decide, by decide⟩

theorem budget_writtenBackRun :
    ∃ (state next : State ℕ 2 1) (visits : List (ObjRef × Bool)),
      (machine (FarMemPtrMeta.pointerHpp 16) 1).run emptyCache writtenBackRun = some state ∧
      isPresent (FarMemPtrMeta.pointerHpp 16) state.threads.far 64 = false ∧
      visits.map Prod.fst = state.threads.registry.objectRefs ∧
      scanTotal visits ≤ state.threads.cacheSize ∧
      next.threads.availableMem + scanTotal visits = state.threads.cacheSize := by
  obtain ⟨state, next, hrun, hstep, ⟨visits, hmemory⟩, habsent, hcheck⟩ := run_writtenBackRun
  have hreachable : (machine (FarMemPtrMeta.pointerHpp 16) 1).ReachableUnder Solvent state :=
    .of_run solvent_of_solventCheck (.initial started_emptyCache) hrun (by decide)
  exact ⟨state, next, visits, hrun, habsent,
    budget hreachable hmemory (solvent_of_solventCheck hcheck) hstep⟩

/-- Slots of an array of five items at 64. -/
def fiveSlots : List Slot := [64, 72, 80, 88, 96]

/-- Every registered pointer is one of the five, with an object of at most one
region's payload. -/
def spread (state : State ℕ 2 1) : Bool :=
  (slotsOf state.threads).all fun ptr =>
    fiveSlots.contains ptr &&
      (state.threads.far.denotes ptr).objectSize ≤ Region.kSize - Region.kHeaderSize

/-- One region for each of the five slots. -/
theorem fitsRegions_of_spread {manager : RegionManager} {state : State ℕ 2 1}
    (hindices : ∀ idx < 41, idx ∈ manager.indices)
    (hspread : spread state = true) :
    FitsRegions (FarMemPtrMeta.pointerHpp 16) manager state.threads := by
  have hslots : ∀ ptr ∈ slotsOf state.threads, ptr ∈ fiveSlots ∧
      (state.threads.far.denotes ptr).objectSize ≤
        Region.kSize - Region.kHeaderSize := by
    simpa [spread] using hspread
  have hbelow : ∀ ptr ∈ fiveSlots, (ptr - 64) / 8 < 41 := by decide
  have hinjective : ∀ left ∈ fiveSlots, ∀ right ∈ fiveSlots,
      (left - 64) / 8 = (right - 64) / 8 → left = right := by decide
  refine ⟨fun ptr => (ptr - 64) / 8, fun ptr hptr _ => ?_, fun idx => ?_⟩
  · exact hindices _ (hbelow ptr (hslots ptr hptr).1)
  · generalize hplaced : (slotsOf state.threads).filter _ = placed
    have hmem : ∀ ptr ∈ placed, ptr ∈ slotsOf state.threads ∧
        (ptr - 64) / 8 = idx := by
      intro ptr hptr
      rw [← hplaced] at hptr
      simp only [List.mem_filter, Bool.and_eq_true, beq_iff_eq] at hptr
      exact ⟨hptr.1, hptr.2.2⟩
    have honce : placed.Nodup := hplaced ▸ (List.nodup_dedup _).filter _
    match placed with
    | [] => simp
    | [ptr] => simpa using (hslots ptr (hmem ptr (by simp)).1).2
    | first :: second :: rest =>
        have hfirst := hmem first (by simp)
        have hsecond := hmem second (by simp)
        have heq := hinjective first (hslots first hfirst.1).1 second
          (hslots second hsecond.1).1 (hfirst.2.trans hsecond.2.symm)
        simp [heq] at honce

theorem run_fillRun_five :
    ∃ state, (machine (FarMemPtrMeta.pointerHpp 16) 1).run emptyCache (fillRun 5) =
        some state ∧
      (∃ visits, state.threads.memory = .store 4500 visits ∧
        scanTotal visits = 4500) ∧
      spread state = true ∧
      state.threads.cacheSize = 4097 :=
  ⟨_, rfl, ⟨_, rfl, by decide⟩, by decide, rfl⟩

/-- A cache of 4097 bytes has five whole regions, which hold five items of 900
bytes: the scan's total exceeds the cache size. -/
theorem not_forall_scanTotal_le :
    ¬ ∀ (pointer : FarMemPtrMeta ℕ) (manager : RegionManager)
        (state : State ℕ 2 1) (total : ℕ) (visits : List (ObjRef × Bool)),
      RegionManager.construct state.threads.cacheSize true 0 = some manager →
      (machine pointer 1).ReachableUnder
        (fun state _ => FitsRegions pointer manager state.threads) state →
      FitsRegions pointer manager state.threads →
      state.threads.memory = .store total visits →
        scanTotal visits ≤ state.threads.cacheSize := by
  intro hclaim
  obtain ⟨state, hrun, ⟨visits, hmemory, htotal⟩, hspread, hcacheSize⟩ :=
    run_fillRun_five
  have hsome : (RegionManager.construct 4097 true 0).isSome = true := by
    decide +kernel
  obtain ⟨manager, hmanager⟩ := Option.isSome_iff_exists.mp hsome
  have hcarved : RegionManager.carvedCount 4097 = 41 := by decide +kernel
  have hperm := RegionManager.indices_construct hmanager (by rw [hcarved]; decide)
  have hindices : ∀ idx < 41, idx ∈ manager.indices := by
    intro idx hidx
    rw [hperm.mem_iff, hcarved]
    exact List.mem_range.mpr hidx
  have hspreads : (machine (FarMemPtrMeta.pointerHpp 16) 1).runAllowed
      (fun state _ => spread state) emptyCache (fillRun 5) = true := by
    decide
  have hreachable : (machine (FarMemPtrMeta.pointerHpp 16) 1).ReachableUnder
      (fun state _ =>
        FitsRegions (FarMemPtrMeta.pointerHpp 16) manager state.threads) state :=
    .of_run (fun hcheck => fitsRegions_of_spread hindices hcheck)
      (.initial started_emptyCache) hrun hspreads
  have hle := hclaim _ manager state 4500 visits (hcacheSize ▸ hmanager) hreachable
    (fitsRegions_of_spread hindices hspread) hmemory
  rw [htotal, hcacheSize] at hle
  exact absurd hle (by decide)

end DynamicSwap.Budget
