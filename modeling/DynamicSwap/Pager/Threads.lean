import DynamicSwap.Array.Registry
import DynamicSwap.Library.Binary64
import DynamicSwap.Swap.Protocol

/-!
# The pager and the memory thread

`dynamic_pager` and `dynamic_memory` as programs of atomic steps beside the
threads and the collector of `Protocol`.  A pass and a scan each hold
`object_addrs_mut` from start to end; presence changes underneath both.  Each
step of this machine is a step of the protocol, an assignment to a pointer, or
leaves the protocol as it is.
-/

namespace DynamicSwap.Pager

open Protocol (Call Denoted)

variable {Meta : Type} {count numGcThreads : ℕ}

/-- The significand of the `double` nearest to `0.1`, over `2 ^ 55`. -/
def tenth : ℕ := 3602879701896397

/-- `std::ceil(cache_size * 0.1)`, both operations rounded to `double`. -/
def thresholdOf (cacheSize : ℕ) : ℕ :=
  Library.Binary64.toDouble (Library.Binary64.toDouble cacheSize * tenth) ⌈/⌉ 2 ^ 55

/-- Holders of `object_addrs_mut`. -/
inductive Holder
  | pager
  | memory
  deriving DecidableEq

/-- Position in `dynamic_pager`; `rest` is what the loop still has to visit. -/
inductive PagerPc
  | test
  | lock
  | guard (rest : List ObjRef)
  | checkPresent (ref : ObjRef) (rest : List ObjRef)
  | swapIn (ref : ObjRef) (rest : List ObjRef)
  | unlock
  | stopped
  deriving DecidableEq

/-- Position in `dynamic_memory`.  `visits` is ghost state: the refs that the
scan has visited and whether it found them present. -/
inductive MemoryPc
  | test
  | lock
  | scan (rest : List ObjRef) (total : ℕ) (visits : List (ObjRef × Bool))
  | store (total : ℕ) (visits : List (ObjRef × Bool))
  | unlock
  | stopped
  deriving DecidableEq

/-- The globals of `dswap.cpp` next to the far-memory state.  `lastScan` is
ghost state: the visits of the last scan that stored `available_mem`. -/
structure State (Meta : Type) (count numGcThreads : ℕ) where
  far : Protocol.State Meta count numGcThreads
  registry : Registry
  objectAddrsMut : Option Holder
  cacheSize : ℕ
  swapThreshold : ℕ
  availableMem : ℕ
  dynamicManagerRunning : Bool
  pager : PagerPc
  memory : MemoryPc
  lastScan : Option (List (ObjRef × Bool))

/-- `far` is a step of the other threads and of the collector; `assign` begins
or ends an object's life at a pointer (allocation, move, free, nullify). -/
inductive Action (count numGcThreads : ℕ) (Meta : Type)
  | far (action : Protocol.Action count numGcThreads)
  | assign (ptr : Slot) (word : Meta) (object : Denoted)
  | registerObject (ptr : Slot) (size : ℕ)
  | stopDynamicPager
  | pager (objAddr : ℕ)
  | memory

variable (pointer : FarMemPtrMeta Meta) (pagerThread : Fin count)

/-- `ref.ptr->meta().is_present()`. -/
def isPresent (far : Protocol.State Meta count numGcThreads) (ptr : Slot) : Bool :=
  pointer.isPresent (far.word ptr)

/-- One step of `dynamic_pager`.  While a `swap_in` is in progress the pager
takes the steps of that call. -/
def pagerStep (state : State Meta count numGcThreads) (objAddr : ℕ) :
    Option (State Meta count numGcThreads) :=
  match state.pager with
  | .test =>
      some { state with
        pager := if state.dynamicManagerRunning then .lock else .stopped }
  | .lock =>
      if state.objectAddrsMut = none then
        some { state with
          objectAddrsMut := some .pager
          pager := .guard state.registry.objectRefs }
      else none
  | .guard [] => some { state with pager := .unlock }
  | .guard (ref :: rest) =>
      if state.availableMem < state.swapThreshold then
        some { state with pager := .unlock }
      else some { state with pager := .checkPresent ref rest }
  | .checkPresent ref rest =>
      if isPresent pointer state.far ref.ptr then
        some { state with pager := .guard rest }
      else
        (Protocol.step pointer state.far (.call pagerThread ref.ptr)).map
          fun far => { state with far := far, pager := .swapIn ref rest }
  | .swapIn _ rest =>
      match Protocol.step pointer state.far (.finish pagerThread) with
      | some far => some { state with far := far, pager := .guard rest }
      | none =>
          (Protocol.step pointer state.far (.swapIn pagerThread objAddr)).map
            fun far => { state with far := far }
  | .unlock => some { state with objectAddrsMut := none, pager := .test }
  | .stopped => none

/-- One step of `dynamic_memory`; the sum and the difference are 64 bits wide. -/
def memoryStep (state : State Meta count numGcThreads) :
    Option (State Meta count numGcThreads) :=
  match state.memory with
  | .test =>
      some { state with
        memory := if state.dynamicManagerRunning then .lock else .stopped }
  | .lock =>
      if state.objectAddrsMut = none then
        some { state with
          objectAddrsMut := some .memory
          memory := .scan state.registry.objectRefs 0 [] }
      else none
  | .scan [] total visits => some { state with memory := .store total visits }
  | .scan (ref :: rest) total visits =>
      let found := isPresent pointer state.far ref.ptr
      some { state with
        memory := .scan rest (if found then (total + ref.size) % 2 ^ 64 else total)
          (visits ++ [(ref, found)]) }
  | .store total visits =>
      some { state with
        availableMem := (state.cacheSize + (2 ^ 64 - total)) % 2 ^ 64
        lastScan := some visits
        memory := .unlock }
  | .unlock => some { state with objectAddrsMut := none, memory := .test }
  | .stopped => none

def step (state : State Meta count numGcThreads) :
    Action count numGcThreads Meta → Option (State Meta count numGcThreads)
  | .far action =>
      if Protocol.threadOf action = some pagerThread then none
      else (Protocol.step pointer state.far action).map
        fun far => { state with far := far }
  | .assign ptr word object =>
      if pointer.isPresent word = false → pointer.getObjectId word = object.objId then
        some { state with far := state.far.assign ptr word object }
      else none
  | .registerObject ptr size =>
      if state.objectAddrsMut = none then
        some { state with registry := state.registry.registerObject ptr size }
      else none
  | .stopDynamicPager => some { state with dynamicManagerRunning := false }
  | .pager objAddr => pagerStep pointer pagerThread state objAddr
  | .memory => memoryStep pointer state

/-- After `init_dynamic_pager(cache_size)`, with any registry. -/
structure Started (state : State Meta count numGcThreads) : Prop where
  far : Protocol.AtRest pointer state.far
  objectAddrsMut : state.objectAddrsMut = none
  cacheSize : state.cacheSize < 2 ^ 64
  swapThreshold : state.swapThreshold = thresholdOf state.cacheSize
  availableMem : state.availableMem = 0
  pager : state.pager = .test
  memory : state.memory = .test
  lastScan : state.lastScan = none

def machine : Library.Machine (State Meta count numGcThreads)
    (Action count numGcThreads Meta) where
  initial := Started pointer
  step := step pointer pagerThread

/-! ## What a step does -/

/-- The steps of `dynamic_pager`, one for each way through its loop. -/
inductive PagerMove (pointer : FarMemPtrMeta Meta) (pagerThread : Fin count) (objAddr : ℕ)
    (state : State Meta count numGcThreads) : State Meta count numGcThreads → Prop
  | test (hpc : state.pager = .test) :
      PagerMove pointer pagerThread objAddr state
        { state with pager := if state.dynamicManagerRunning then .lock else .stopped }
  | lock (hpc : state.pager = .lock) (hfree : state.objectAddrsMut = none) :
      PagerMove pointer pagerThread objAddr state
        { state with
          objectAddrsMut := some .pager
          pager := .guard state.registry.objectRefs }
  | visited (hpc : state.pager = .guard []) :
      PagerMove pointer pagerThread objAddr state { state with pager := .unlock }
  | short (ref : ObjRef) (rest : List ObjRef) (hpc : state.pager = .guard (ref :: rest))
      (hshort : state.availableMem < state.swapThreshold) :
      PagerMove pointer pagerThread objAddr state { state with pager := .unlock }
  | enough (ref : ObjRef) (rest : List ObjRef) (hpc : state.pager = .guard (ref :: rest))
      (henough : state.swapThreshold ≤ state.availableMem) :
      PagerMove pointer pagerThread objAddr state
        { state with pager := .checkPresent ref rest }
  | present (ref : ObjRef) (rest : List ObjRef) (hpc : state.pager = .checkPresent ref rest) :
      PagerMove pointer pagerThread objAddr state { state with pager := .guard rest }
  | call (ref : ObjRef) (rest : List ObjRef) (far : Protocol.State Meta count numGcThreads)
      (hpc : state.pager = .checkPresent ref rest)
      (hcall : Protocol.step pointer state.far (.call pagerThread ref.ptr) = some far) :
      PagerMove pointer pagerThread objAddr state
        { state with far := far, pager := .swapIn ref rest }
  | finish (ref : ObjRef) (rest : List ObjRef) (far : Protocol.State Meta count numGcThreads)
      (hpc : state.pager = .swapIn ref rest)
      (hfinish : Protocol.step pointer state.far (.finish pagerThread) = some far) :
      PagerMove pointer pagerThread objAddr state
        { state with far := far, pager := .guard rest }
  | swapIn (ref : ObjRef) (rest : List ObjRef) (far : Protocol.State Meta count numGcThreads)
      (hpc : state.pager = .swapIn ref rest)
      (hswapIn : Protocol.step pointer state.far (.swapIn pagerThread objAddr) = some far) :
      PagerMove pointer pagerThread objAddr state { state with far := far }
  | unlock (hpc : state.pager = .unlock) :
      PagerMove pointer pagerThread objAddr state
        { state with objectAddrsMut := none, pager := .test }

/-- The steps of `dynamic_memory`. -/
inductive MemoryMove (pointer : FarMemPtrMeta Meta) (state : State Meta count numGcThreads) :
    State Meta count numGcThreads → Prop
  | test (hpc : state.memory = .test) :
      MemoryMove pointer state
        { state with memory := if state.dynamicManagerRunning then .lock else .stopped }
  | lock (hpc : state.memory = .lock) (hfree : state.objectAddrsMut = none) :
      MemoryMove pointer state
        { state with
          objectAddrsMut := some .memory
          memory := .scan state.registry.objectRefs 0 [] }
  | scanned (total : ℕ) (visits : List (ObjRef × Bool))
      (hpc : state.memory = .scan [] total visits) :
      MemoryMove pointer state { state with memory := .store total visits }
  | visit (ref : ObjRef) (rest : List ObjRef) (total : ℕ) (visits : List (ObjRef × Bool))
      (hpc : state.memory = .scan (ref :: rest) total visits) :
      MemoryMove pointer state
        { state with
          memory := .scan rest
            (if isPresent pointer state.far ref.ptr then (total + ref.size) % 2 ^ 64 else total)
            (visits ++ [(ref, isPresent pointer state.far ref.ptr)]) }
  | store (total : ℕ) (visits : List (ObjRef × Bool))
      (hpc : state.memory = .store total visits) :
      MemoryMove pointer state
        { state with
          availableMem := (state.cacheSize + (2 ^ 64 - total)) % 2 ^ 64
          lastScan := some visits
          memory := .unlock }
  | unlock (hpc : state.memory = .unlock) :
      MemoryMove pointer state { state with objectAddrsMut := none, memory := .test }

section Moves

variable {pointer} {pagerThread}
variable {state next : State Meta count numGcThreads}

theorem pagerMove_of_pagerStep {objAddr : ℕ}
    (hstep : pagerStep pointer pagerThread state objAddr = some next) :
    PagerMove pointer pagerThread objAddr state next := by
  rw [pagerStep] at hstep
  cases hpc : state.pager with
  | test =>
      rw [hpc] at hstep
      cases hstep
      exact .test hpc
  | lock =>
      simp only [hpc, Option.ite_none_right_eq_some, Option.some.injEq] at hstep
      obtain ⟨hfree, rfl⟩ := hstep
      exact .lock hpc hfree
  | guard rest =>
      cases rest with
      | nil =>
          rw [hpc] at hstep
          cases hstep
          exact .visited hpc
      | cons ref rest =>
          simp only [hpc] at hstep
          split at hstep <;> cases hstep
          · exact .short ref rest hpc ‹_›
          · exact .enough ref rest hpc (not_lt.mp ‹_›)
  | checkPresent ref rest =>
      simp only [hpc] at hstep
      split at hstep
      · cases hstep
        exact .present ref rest hpc
      · obtain ⟨far, hcall, rfl⟩ := Option.map_eq_some_iff.mp hstep
        exact .call ref rest far hpc hcall
  | swapIn ref rest =>
      simp only [hpc] at hstep
      split at hstep
      · rename_i far hfinish
        cases hstep
        exact .finish ref rest far hpc hfinish
      · obtain ⟨far, hswapIn, rfl⟩ := Option.map_eq_some_iff.mp hstep
        rw [← hpc]
        exact .swapIn ref rest far hpc hswapIn
  | unlock =>
      rw [hpc] at hstep
      cases hstep
      exact .unlock hpc
  | stopped =>
      rw [hpc] at hstep
      cases hstep

theorem memoryMove_of_memoryStep (hstep : memoryStep pointer state = some next) :
    MemoryMove pointer state next := by
  rw [memoryStep] at hstep
  cases hpc : state.memory with
  | test =>
      rw [hpc] at hstep
      cases hstep
      exact .test hpc
  | lock =>
      simp only [hpc, Option.ite_none_right_eq_some, Option.some.injEq] at hstep
      obtain ⟨hfree, rfl⟩ := hstep
      exact .lock hpc hfree
  | scan rest total visits =>
      cases rest with
      | nil =>
          rw [hpc] at hstep
          cases hstep
          exact .scanned total visits hpc
      | cons ref rest =>
          rw [hpc] at hstep
          cases hstep
          exact .visit ref rest total visits hpc
  | store total visits =>
      rw [hpc] at hstep
      cases hstep
      exact .store total visits hpc
  | unlock =>
      rw [hpc] at hstep
      cases hstep
      exact .unlock hpc
  | stopped =>
      rw [hpc] at hstep
      cases hstep

/-! ## What a step leaves alone -/

theorem memoryStep_far (hstep : memoryStep pointer state = some next) :
    next.far = state.far := by
  cases memoryMove_of_memoryStep hstep <;> rfl

/-- What a pager step does to the far memory: nothing, or a step of the pager's
own thread. -/
theorem pagerStep_far {objAddr : ℕ}
    (hstep : pagerStep pointer pagerThread state objAddr = some next) :
    next.far = state.far ∨
      (∃ ref rest, state.pager = .checkPresent ref rest ∧
        Protocol.step pointer state.far (.call pagerThread ref.ptr) =
          some next.far) ∨
      Protocol.step pointer state.far (.finish pagerThread) = some next.far ∨
      Protocol.step pointer state.far (.swapIn pagerThread objAddr) =
        some next.far := by
  cases pagerMove_of_pagerStep hstep with
  | call ref rest far hpc hcall => exact .inr (.inl ⟨ref, rest, hpc, hcall⟩)
  | finish ref rest far hpc hfinish => exact .inr (.inr (.inl hfinish))
  | swapIn ref rest far hpc hswapIn => exact .inr (.inr (.inr hswapIn))
  | _ => exact .inl rfl

theorem pagerStep_frame {objAddr : ℕ}
    (hstep : pagerStep pointer pagerThread state objAddr = some next) :
    next.registry = state.registry ∧ next.memory = state.memory ∧
      next.cacheSize = state.cacheSize := by
  cases pagerMove_of_pagerStep hstep <;> exact ⟨rfl, rfl, rfl⟩

theorem memoryStep_registry (hstep : memoryStep pointer state = some next) :
    next.registry = state.registry := by
  cases memoryMove_of_memoryStep hstep <;> rfl

theorem pagerStep_running {objAddr : ℕ}
    (hstep : pagerStep pointer pagerThread state objAddr = some next) :
    next.dynamicManagerRunning = state.dynamicManagerRunning := by
  cases pagerMove_of_pagerStep hstep <;> rfl

theorem memoryStep_frame (hstep : memoryStep pointer state = some next) :
    next.dynamicManagerRunning = state.dynamicManagerRunning ∧
      next.pager = state.pager := by
  cases memoryMove_of_memoryStep hstep <;> exact ⟨rfl, rfl⟩

/-- The pager's own steps do not change what a pointer denotes. -/
theorem pagerStep_denotes {objAddr : ℕ}
    (hstep : pagerStep pointer pagerThread state objAddr = some next) :
    next.far.denotes = state.far.denotes := by
  rcases pagerStep_far hstep with hsame | ⟨ref, rest, -, hcall⟩ | hfinish |
    hswapIn
  · rw [hsame]
  · exact Protocol.denotes_of_step hcall
  · exact Protocol.denotes_of_step hfinish
  · exact Protocol.denotes_of_step hswapIn

/-- The steps beside the pager leave it where it is, and its call too. -/
theorem pager_of_step {action : Action count numGcThreads Meta}
    (hother : ∀ objAddr, action ≠ .pager objAddr)
    (hstep : step pointer pagerThread state action = some next) :
    next.pager = state.pager ∧ next.far.calls pagerThread = state.far.calls pagerThread := by
  cases action with
  | far action =>
      simp only [step] at hstep
      split at hstep
      · cases hstep
      · rename_i hthread
        obtain ⟨after, hafter, rfl⟩ := Option.map_eq_some_iff.mp hstep
        exact ⟨rfl, Protocol.calls_of_step hthread hafter⟩
  | assign slot word object | registerObject slot size =>
      simp only [step] at hstep
      split at hstep <;> cases hstep
      exact ⟨rfl, rfl⟩
  | stopDynamicPager =>
      cases hstep
      exact ⟨rfl, rfl⟩
  | pager objAddr => exact absurd rfl (hother objAddr)
  | memory => exact ⟨(memoryStep_frame hstep).2, by rw [memoryStep_far hstep]⟩

/-- The steps beside the memory thread leave it where it is. -/
theorem memory_of_step {action : Action count numGcThreads Meta}
    (hother : action ≠ .memory)
    (hstep : step pointer pagerThread state action = some next) :
    next.memory = state.memory := by
  cases action with
  | far action =>
      simp only [step] at hstep
      split at hstep
      · cases hstep
      · obtain ⟨far, -, rfl⟩ := Option.map_eq_some_iff.mp hstep
        rfl
  | assign ptr word object | registerObject ptr size =>
      simp only [step] at hstep
      split at hstep <;> cases hstep
      rfl
  | stopDynamicPager =>
      cases hstep
      rfl
  | pager objAddr => exact (pagerStep_frame hstep).2.1
  | memory => exact absurd rfl hother

end Moves

/-! ## Two objects of 950 bytes and a cache of 1000 -/

/-- Format II of object 8: 32 bytes, not present, not shared. -/
def otherWord : ℕ :=
  0x20008100

theorem getObjectId_otherWord :
    (FarMemPtrMeta.pointerHpp 16).getObjectId otherWord = 8 := by
  decide

/-- Object 8 is behind the pointer at 16, object 7 behind every other. -/
def twoRemote : Protocol.State ℕ 2 1 :=
  { Protocol.swappedOut with
    shared := { Protocol.swappedOut.shared with
      heap := Protocol.swappedOut.shared.heap.setMeta 16 otherWord }
    denotes := Function.update Protocol.swappedOut.denotes 16
      { Protocol.remoteObject with objId := 8, objId_lt := by decide } }

theorem atRest_twoRemote :
    Protocol.AtRest (FarMemPtrMeta.pointerHpp 16) twoRemote where
  names ptr hptr := by
    by_cases heq : ptr = 16
    · subst ptr
      exact getObjectId_otherWord
    · have hword : twoRemote.word ptr = Protocol.swappedOut.word ptr :=
        Heap.metas_setMeta_of_ne _ _ heq
      have hdenotes : twoRemote.denotes ptr = Protocol.swappedOut.denotes ptr :=
        Function.update_of_ne heq ..
      rw [hword] at hptr ⊢
      rw [hdenotes]
      exact Protocol.atRest_swappedOut.names ptr hptr
  calls _ := rfl
  scopes _ := rfl
  phase := rfl
  workers _ := rfl

/-- Two registered items, `init_dynamic_pager(1000)`. -/
def smallCache : State ℕ 2 1 where
  far := twoRemote
  registry := ⟨[⟨8, 950⟩, ⟨16, 950⟩], [8, 16]⟩
  objectAddrsMut := none
  cacheSize := 1000
  swapThreshold := 100
  availableMem := 0
  dynamicManagerRunning := true
  pager := .test
  memory := .test
  lastScan := none

theorem started_smallCache :
    Started (FarMemPtrMeta.pointerHpp 16) smallCache where
  far := atRest_twoRemote
  objectAddrsMut := rfl
  cacheSize := by decide
  swapThreshold := by decide
  availableMem := rfl
  pager := rfl
  memory := rfl
  lastScan := rfl

end DynamicSwap.Pager
