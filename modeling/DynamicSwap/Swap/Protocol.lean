import DynamicSwap.Library.Machine
import DynamicSwap.Swap.SwapIn

/-!
# Swap-ins beside the collector

Threads call `swap_in` on unique pointers while GC rounds mark and write back.
Mutators are inside a `DerefScope`, so a round waits for those that were there
when it marked; the pager is outside, and no round waits for it.  Every call
follows a presence check that found the pointer absent, but `swap_in` loads the
object id before its own check.  The id is right in the runs where no pointer
is written back between the two loads of a thread outside any scope.

Object data is not followed here: a store of the collector is `gc_copy` or
`gc_wb`, and what `swap_out` moves besides is in `SwapOut`.
-/

namespace DynamicSwap.Protocol

open SwapIn (Pc)

variable {Meta : Type} {count numGcThreads : ℕ}

/-- Holders of object locks. -/
inductive Party (count numGcThreads : ℕ)
  | thread (id : Fin count)
  | worker (id : Fin numGcThreads)
  deriving DecidableEq

/-- Phases of a round of `gc_cache`. -/
inductive Phase
  | idle
  | marking
  | waiting
  | writing
  deriving DecidableEq

/-- What a pointer denotes: the fields that its metadata holds while the object
is remote, each within the width of format II. -/
structure Denoted where
  dsId : ℕ
  objectSize : ℕ
  objId : ℕ
  dsId_lt : dsId < 2 ^ 8
  objectSize_pos : 0 < objectSize
  objectSize_lt : objectSize < 2 ^ 16
  objId_lt : objId < 2 ^ 38

theorem zero_lt_dsIds : 0 < 2 ^ 8 := by decide

theorem zero_lt_objIds : 0 < 2 ^ 38 := by decide

/-- A `swap_in` in progress. -/
structure Call (Meta : Type) where
  ptr : Slot
  pc : Pc Meta
  deriving DecidableEq

/-- Position of a GC worker on one object.  `swapOut` is the evacuation test
that opens `swap_out`, `gcStore` the metadata store that closes it. -/
inductive WorkerPc
  | markLock
  | setEvacuation
  | writeBackLock
  | swapOut
  | gcStore
  | unlock
  deriving DecidableEq

/-- A worker on an object, with the pointer that the object's header names. -/
structure Worker where
  ptr : Slot
  pc : WorkerPc

structure State (Meta : Type) (count numGcThreads : ℕ) where
  shared : Shared Meta (Party count numGcThreads)
  denotes : Slot → Denoted
  calls : Fin count → Option (Call Meta)
  scopes : Fin count → Option Bool
  expectedStatus : Bool
  phase : Phase
  workers : Fin numGcThreads → Option Worker

/-- `call` is the pager's or a mutator's presence check with the call of
`swap_in` that follows it; `pick` is a worker that reaches a live object. -/
inductive Action (count numGcThreads : ℕ)
  | enterScope (thread : Fin count)
  | exitScope (thread : Fin count)
  | call (thread : Fin count) (ptr : Slot)
  | swapIn (thread : Fin count) (objAddr : ℕ)
  | finish (thread : Fin count)
  | migrate (thread : Fin count) (ptr : Slot) (objAddr : ℕ)
  | startMarking
  | flipStatus
  | startWriting
  | endRound
  | pick (worker : Fin numGcThreads) (ptr : Slot)
  | work (worker : Fin numGcThreads) (copyAddr : Option ℕ)

namespace State

variable (state : State Meta count numGcThreads)

/-- `ptr->meta()`. -/
def word (ptr : Slot) : Meta :=
  state.shared.heap.metas ptr

def setWord (ptr : Slot) (word : Meta) : State Meta count numGcThreads :=
  { state with
    shared := { state.shared with heap := state.shared.heap.setMeta ptr word } }

def owner (objId : ℕ) : Option (Party count numGcThreads) :=
  state.shared.lockOwner objId

def setOwner (objId : ℕ) (owner : Option (Party count numGcThreads)) :
    State Meta count numGcThreads :=
  { state with
    shared := { state.shared with
      lockOwner := Function.update state.shared.lockOwner objId owner } }

def setCall (thread : Fin count) (call : Option (Call Meta)) :
    State Meta count numGcThreads :=
  { state with calls := Function.update state.calls thread call }

def setScope (thread : Fin count) (status : Option Bool) :
    State Meta count numGcThreads :=
  { state with scopes := Function.update state.scopes thread status }

def setWorker (id : Fin numGcThreads) (worker : Option Worker) :
    State Meta count numGcThreads :=
  { state with workers := Function.update state.workers id worker }

/-- Begin or end the life of an object at a pointer: allocation, move, free or
`nullify`.  The parties of this machine do not do it; their callers may. -/
def assign (ptr : Slot) (word : Meta) (object : Denoted) :
    State Meta count numGcThreads :=
  { state.setWord ptr word with
    denotes := Function.update state.denotes ptr object }

variable {state}

@[simp]
theorem calls_setCall_self {thread : Fin count} {call : Option (Call Meta)} :
    (state.setCall thread call).calls thread = call :=
  Function.update_self ..

@[simp]
theorem calls_setCall_of_ne {thread other : Fin count} {call : Option (Call Meta)}
    (hne : other ≠ thread) :
    (state.setCall thread call).calls other = state.calls other :=
  Function.update_of_ne hne ..

@[simp]
theorem scopes_setScope_self {thread : Fin count} {status : Option Bool} :
    (state.setScope thread status).scopes thread = status :=
  Function.update_self ..

@[simp]
theorem scopes_setScope_of_ne {thread other : Fin count} {status : Option Bool}
    (hne : other ≠ thread) :
    (state.setScope thread status).scopes other = state.scopes other :=
  Function.update_of_ne hne ..

@[simp]
theorem workers_setWorker_self {id : Fin numGcThreads} {worker : Option Worker} :
    (state.setWorker id worker).workers id = worker :=
  Function.update_self ..

@[simp]
theorem workers_setWorker_of_ne {id other : Fin numGcThreads}
    {worker : Option Worker} (hne : other ≠ id) :
    (state.setWorker id worker).workers other = state.workers other :=
  Function.update_of_ne hne ..

end State

variable (pointer : FarMemPtrMeta Meta)
variable (state : State Meta count numGcThreads)

/-- `FarMemManager::lock_object` by a worker, which then goes on at `pc`. -/
def lockObject (id : Fin numGcThreads) (worker : Worker) (pc : WorkerPc) :
    Option (State Meta count numGcThreads) :=
  let objId := (state.denotes worker.ptr).objId
  if state.owner objId = none then
    some ((state.setOwner objId (some (.worker id))).setWorker id
      (some ⟨worker.ptr, pc⟩))
  else none

/-- The store that ends `swap_out`: `gc_copy` when the object was hot and a
local address was allocated for it, else `gc_wb`. -/
def gcStore (ptr : Slot) (copyAddr : Option ℕ) : Meta :=
  match copyAddr with
  | some addr => pointer.gcCopy (state.word ptr) addr
  | none =>
      pointer.gcWb (state.word ptr) (state.denotes ptr).dsId
        (state.denotes ptr).objectSize (state.denotes ptr).objId

def workerStep (id : Fin numGcThreads) (copyAddr : Option ℕ) (worker : Worker) :
    Option (State Meta count numGcThreads) :=
  match worker.pc with
  | .markLock => lockObject state id worker .setEvacuation
  | .setEvacuation =>
      some ((state.setWord worker.ptr
        (pointer.setEvacuation (state.word worker.ptr))).setWorker id
          (some ⟨worker.ptr, .unlock⟩))
  | .writeBackLock => lockObject state id worker .swapOut
  | .swapOut =>
      some (state.setWorker id (some ⟨worker.ptr,
        if pointer.isEvacuation (state.word worker.ptr) then .gcStore
        else .unlock⟩))
  | .gcStore =>
      if ∀ addr ∈ copyAddr, addr < pointer.addrBound then
        some ((state.setWord worker.ptr
          (gcStore pointer state worker.ptr copyAddr)).setWorker id
            (some ⟨worker.ptr, .unlock⟩))
      else none
  | .unlock =>
      some ((state.setOwner (state.denotes worker.ptr).objId none).setWorker id
        none)

/-- No worker is on the object: each boundary task runs once. -/
def Unvisited (ptr : Slot) : Prop :=
  ∀ id, ∀ worker ∈ state.workers id, worker.ptr ≠ ptr

instance (ptr : Slot) : Decidable (Unvisited state ptr) :=
  inferInstanceAs (Decidable (∀ id, ∀ worker ∈ state.workers id, worker.ptr ≠ ptr))

def step : Action count numGcThreads → Option (State Meta count numGcThreads)
  | .enterScope thread =>
      if state.scopes thread = none ∧ (state.calls thread).isNone then
        some (state.setScope thread (some state.expectedStatus))
      else none
  | .exitScope thread =>
      if (state.calls thread).isNone then some (state.setScope thread none)
      else none
  | .call thread ptr =>
      if (state.calls thread).isNone ∧
          pointer.isPresent (state.word ptr) = false then
        some (state.setCall thread (some ⟨ptr, .readId⟩))
      else none
  | .swapIn thread objAddr =>
      match state.calls thread with
      | none => none
      | some call =>
          match SwapIn.step pointer (fun slot => [slot]) (.thread thread) call.ptr
              objAddr state.shared call.pc with
          | none => none
          | some (shared, pc) =>
              some ({ state with shared := shared }.setCall thread
                (some ⟨call.ptr, pc⟩))
  | .finish thread =>
      match state.calls thread with
      | some ⟨_, .returned⟩ => some (state.setCall thread none)
      | _ => none
  | .migrate thread ptr objAddr =>
      if (state.scopes thread).isSome ∧
          pointer.isPresent (state.word ptr) = true ∧
          pointer.isEvacuation (state.word ptr) = true ∧
          state.owner (state.denotes ptr).objId = none ∧
          objAddr < pointer.addrBound then
        some (state.setWord ptr (pointer.mutatorCopy (state.word ptr) objAddr))
      else none
  | .startMarking =>
      if state.phase = .idle then some { state with phase := .marking } else none
  | .flipStatus =>
      if state.phase = .marking ∧ ∀ id, (state.workers id).isNone then
        some { state with
          phase := .waiting
          expectedStatus := !state.expectedStatus }
      else none
  | .startWriting =>
      if state.phase = .waiting ∧
          ∀ thread, state.scopes thread ≠ some (!state.expectedStatus) then
        some { state with phase := .writing }
      else none
  | .endRound =>
      if state.phase = .writing ∧ ∀ id, (state.workers id).isNone then
        some { state with phase := .idle }
      else none
  | .pick id ptr =>
      if (state.workers id).isNone ∧ Unvisited state ptr ∧
          pointer.isPresent (state.word ptr) = true then
        match state.phase with
        | .marking => some (state.setWorker id (some ⟨ptr, .markLock⟩))
        | .writing => some (state.setWorker id (some ⟨ptr, .writeBackLock⟩))
        | _ => none
      else none
  | .work id copyAddr =>
      match state.workers id with
      | none => none
      | some worker => workerStep pointer state id copyAddr worker

/-- The thread that an action is a step of. -/
def threadOf : Action count numGcThreads → Option (Fin count)
  | .enterScope thread | .exitScope thread | .call thread _ | .swapIn thread _
  | .finish thread | .migrate thread _ _ => some thread
  | .startMarking | .flipStatus | .startWriting | .endRound | .pick _ _
  | .work _ _ => none

/-- Every absent pointer holds the id of the object that it denotes. -/
def NamesDenoted : Prop :=
  ∀ ptr, pointer.isPresent (state.word ptr) = false →
    pointer.getObjectId (state.word ptr) = (state.denotes ptr).objId

/-- No call, scope, lock or GC round is in progress. -/
structure AtRest (state : State Meta count numGcThreads) : Prop where
  names : NamesDenoted pointer state
  calls : ∀ thread, state.calls thread = none
  scopes : ∀ thread, state.scopes thread = none
  phase : state.phase = .idle
  workers : ∀ id, state.workers id = none

def machine : Library.Machine (State Meta count numGcThreads)
    (Action count numGcThreads) where
  initial := AtRest pointer
  step := step pointer

/-! ## What holds beside a running collector -/

/-- The id that a call holds as its lock key, from `lock_object` on. -/
def lockKey : Pc Meta → Option ℕ
  | .readId | .checkPresent _ | .returned => none
  | .lock objId | .checkAgain objId | .allocate objId | .readDsId objId _
  | .readObject objId _ _ | .checkShared objId _ | .setPresent objId _ _
  | .decRefCnt objId _ | .unlock objId => some objId

/-- Every id that `swap_in` locks and reads by is the id of the object that its
pointer denotes. -/
def LoadsDenoted : Prop :=
  ∀ thread, ∀ call ∈ state.calls thread, ∀ key ∈ lockKey call.pc,
    key = (state.denotes call.ptr).objId

/-- No pointer is written back while a thread outside any scope stands between
a load of its id that found it present and its presence check. -/
def NoStaleId (state : State Meta count numGcThreads)
    (action : Action count numGcThreads) : Prop :=
  ∀ id worker, action = .work id none → state.workers id = some worker →
    worker.pc = .gcStore → ∀ thread, ∀ call ∈ state.calls thread,
      call.ptr = worker.ptr → state.scopes thread = none →
        ∀ word, call.pc = .checkPresent word → pointer.isPresent word = false

section Invariant

variable (shared : Shared Meta (Party count numGcThreads))
variable (denotes : Slot → Denoted)

/-- The object at the pointer is local and marked for evacuation. -/
def Marked (ptr : Slot) : Prop :=
  pointer.isPresent (shared.heap.metas ptr) = true ∧
    pointer.isEvacuation (shared.heap.metas ptr) = true

/-- The call has the lock of the object, with the right key. -/
def Holds (thread : Fin count) (ptr : Slot) (key : ℕ) : Prop :=
  key = (denotes ptr).objId ∧ shared.lockOwner key = some (.thread thread)

/-- A call under the lock whose pointer is still to be set present. -/
def HoldsAbsent (thread : Fin count) (ptr : Slot) (key : ℕ) : Prop :=
  Holds shared denotes thread ptr key ∧
    pointer.isPresent (shared.heap.metas ptr) = false

/-- What holds of a call at each position. -/
def CallOk (thread : Fin count) (ptr : Slot) : Pc Meta → Prop
  | .readId | .returned => True
  | .checkPresent word =>
      (pointer.isPresent word = true →
          pointer.isPresent (shared.heap.metas ptr) = true) ∧
        (pointer.isPresent word = false →
          pointer.getObjectId word = (denotes ptr).objId)
  | .lock key => key = (denotes ptr).objId
  | .checkAgain key | .decRefCnt key _ | .unlock key =>
      Holds shared denotes thread ptr key
  | .allocate key | .readDsId key _ | .readObject key _ _ | .checkShared key _ =>
      HoldsAbsent pointer shared denotes thread ptr key
  | .setPresent key _ pending =>
      Holds shared denotes thread ptr key ∧ (pending = [] ∨
        pending = [ptr] ∧ pointer.isPresent (shared.heap.metas ptr) = false)

/-- The worker has the lock of its object. -/
def WorkerHolds (id : Fin numGcThreads) (ptr : Slot) : Prop :=
  shared.lockOwner (denotes ptr).objId = some (.worker id)

/-- What holds of a worker at each position. -/
def WorkerOk (phase : Phase) (id : Fin numGcThreads) (ptr : Slot) :
    WorkerPc → Prop
  | .markLock => phase = .marking ∧
      pointer.isPresent (shared.heap.metas ptr) = true
  | .setEvacuation => phase = .marking ∧
      pointer.isPresent (shared.heap.metas ptr) = true ∧
      WorkerHolds shared denotes id ptr
  | .writeBackLock => phase = .writing ∧
      pointer.isPresent (shared.heap.metas ptr) = true
  | .swapOut => phase = .writing ∧
      pointer.isPresent (shared.heap.metas ptr) = true ∧
      WorkerHolds shared denotes id ptr
  | .gcStore => phase = .writing ∧ Marked pointer shared ptr ∧
      WorkerHolds shared denotes id ptr
  | .unlock => WorkerHolds shared denotes id ptr

/-- A mutator in a call can see a marked pointer only until its round has
waited for it. -/
def Observed (status : Bool) : Prop :=
  state.phase = .marking ∨
    (state.phase = .waiting ∧ status = !state.expectedStatus)

structure Inv (state : State Meta count numGcThreads) : Prop where
  names : NamesDenoted pointer state
  scopes : state.phase ≠ .waiting → ∀ thread, ∀ status ∈ state.scopes thread,
    status = state.expectedStatus
  marked : ∀ thread, ∀ call ∈ state.calls thread,
    ∀ status ∈ state.scopes thread, Marked pointer state.shared call.ptr →
      Observed state status
  calls : ∀ thread, ∀ call ∈ state.calls thread,
    CallOk pointer state.shared state.denotes thread call.ptr call.pc
  workers : ∀ id, ∀ worker ∈ state.workers id,
    WorkerOk pointer state.shared state.denotes state.phase id worker.ptr worker.pc
  single : ∀ id, ∀ worker ∈ state.workers id, ∀ other,
    ∀ rival ∈ state.workers other, rival.ptr = worker.ptr → other = id

end Invariant

section Steps

variable {pointer} {state}
variable {shared next : Shared Meta (Party count numGcThreads)}
variable {denotes : Slot → Denoted} {phase : Phase}
variable {thread : Fin count} {id : Fin numGcThreads} {ptr : Slot}

/-- A call keeps its facts when its own lock is kept and the presence of its
pointer does not change under it. -/
theorem CallOk.frame {pc : Pc Meta}
    (howner : ∀ key, shared.lockOwner key = some (.thread thread) →
      next.lockOwner key = some (.thread thread))
    (hpresent : ∀ word, pc = .checkPresent word → pointer.isPresent word = true →
      pointer.isPresent (shared.heap.metas ptr) = true →
      pointer.isPresent (next.heap.metas ptr) = true)
    (habsent : shared.lockOwner (denotes ptr).objId = some (.thread thread) →
      pointer.isPresent (shared.heap.metas ptr) = false →
      pointer.isPresent (next.heap.metas ptr) = false)
    (hok : CallOk pointer shared denotes thread ptr pc) :
    CallOk pointer next denotes thread ptr pc := by
  have hholds : ∀ {key}, Holds shared denotes thread ptr key →
      Holds next denotes thread ptr key := fun hholds =>
    ⟨hholds.1, howner _ hholds.2⟩
  have hwindow : ∀ {key}, HoldsAbsent pointer shared denotes thread ptr key →
      HoldsAbsent pointer next denotes thread ptr key := fun hwindow =>
    ⟨hholds hwindow.1, habsent (hwindow.1.1 ▸ hwindow.1.2) hwindow.2⟩
  cases pc with
  | readId | returned => trivial
  | checkPresent word =>
      exact ⟨fun hword => hpresent word rfl hword (hok.1 hword), hok.2⟩
  | lock key => exact hok
  | checkAgain key | decRefCnt key addr | unlock key => exact hholds hok
  | allocate key | readDsId key addr | readObject key addr dsId
  | checkShared key addr => exact hwindow hok
  | setPresent key addr pending =>
      refine ⟨hholds hok.1, hok.2.imp_right fun hpending => ⟨hpending.1, ?_⟩⟩
      exact habsent (hok.1.1 ▸ hok.1.2) hpending.2

theorem WorkerOk.frame {pc : WorkerPc}
    (howner : WorkerHolds shared denotes id ptr → WorkerHolds next denotes id ptr)
    (hpresent : pointer.isPresent (shared.heap.metas ptr) = true →
      pointer.isPresent (next.heap.metas ptr) = true)
    (hmarked : WorkerHolds shared denotes id ptr → Marked pointer shared ptr →
      Marked pointer next ptr)
    (hok : WorkerOk pointer shared denotes phase id ptr pc) :
    WorkerOk pointer next denotes phase id ptr pc := by
  cases pc with
  | markLock | writeBackLock => exact ⟨hok.1, hpresent hok.2⟩
  | setEvacuation | swapOut => exact ⟨hok.1, hpresent hok.2.1, howner hok.2.2⟩
  | gcStore => exact ⟨hok.1, hmarked hok.2.2 hok.2.1, howner hok.2.2⟩
  | unlock => exact howner hok

theorem CallOk.of_denotes {other : Slot → Denoted} {pc : Pc Meta}
    (hdenotes : other ptr = denotes ptr)
    (hok : CallOk pointer shared denotes thread ptr pc) :
    CallOk pointer shared other thread ptr pc := by
  cases pc with
  | readId | returned => trivial
  | _ => simpa only [CallOk, HoldsAbsent, Holds, hdenotes] using hok

theorem WorkerOk.of_denotes {other : Slot → Denoted} {pc : WorkerPc}
    (hdenotes : other ptr = denotes ptr)
    (hok : WorkerOk pointer shared denotes phase id ptr pc) :
    WorkerOk pointer shared other phase id ptr pc := by
  cases pc <;> simpa only [WorkerOk, WorkerHolds, hdenotes] using hok

/-- A step on objects, counters or logs only. -/
theorem Inv.of_shared (hinv : Inv pointer state)
    (hmetas : next.heap.metas = state.shared.heap.metas)
    (howner : next.lockOwner = state.shared.lockOwner) :
    Inv pointer { state with shared := next } where
  names ptr hptr := by
    simp only [State.word, hmetas] at hptr ⊢
    exact hinv.names ptr hptr
  scopes := hinv.scopes
  marked thread call hcall status hstatus hmarked := by
    simp only [Marked, hmetas] at hmarked
    exact hinv.marked thread call hcall status hstatus hmarked
  calls thread call hcall := by
    refine (hinv.calls thread call hcall).frame ?_ ?_ ?_ <;>
      simp only [hmetas, howner] <;> tauto
  workers id worker hworker := by
    refine (hinv.workers id worker hworker).frame ?_ ?_ ?_ <;>
      simp only [WorkerHolds, Marked, hmetas, howner] <;> tauto
  single := hinv.single

theorem Inv.setCall (hinv : Inv pointer state) {call : Option (Call Meta)}
    (hok : ∀ new ∈ call, CallOk pointer state.shared state.denotes thread new.ptr
      new.pc)
    (hmarked : ∀ new ∈ call, ∀ status ∈ state.scopes thread,
      Marked pointer state.shared new.ptr → Observed state status) :
    Inv pointer (state.setCall thread call) where
  names := hinv.names
  scopes := hinv.scopes
  marked other new hnew := by
    by_cases heq : other = thread
    · subst other
      rw [State.calls_setCall_self] at hnew
      exact hmarked new hnew
    · rw [State.calls_setCall_of_ne heq] at hnew
      exact hinv.marked other new hnew
  calls other new hnew := by
    by_cases heq : other = thread
    · subst other
      rw [State.calls_setCall_self] at hnew
      exact hok new hnew
    · rw [State.calls_setCall_of_ne heq] at hnew
      exact hinv.calls other new hnew
  workers := hinv.workers
  single := hinv.single

theorem Inv.setWorker (hinv : Inv pointer state) {worker : Option Worker}
    (hok : ∀ new ∈ worker, WorkerOk pointer state.shared state.denotes
      state.phase id new.ptr new.pc)
    (hsingle : ∀ new ∈ worker, ∀ other, ∀ rival ∈ state.workers other,
      rival.ptr = new.ptr → other = id) :
    Inv pointer (state.setWorker id worker) where
  names := hinv.names
  scopes := hinv.scopes
  marked := hinv.marked
  calls := hinv.calls
  workers other new hnew := by
    by_cases heq : other = id
    · subst other
      rw [State.workers_setWorker_self] at hnew
      exact hok new hnew
    · rw [State.workers_setWorker_of_ne heq] at hnew
      exact hinv.workers other new hnew
  single first new hnew second rival hrival hptr := by
    by_cases hfirst : first = id <;> by_cases hsecond : second = id
    · rw [hfirst, hsecond]
    · subst first
      rw [State.workers_setWorker_self] at hnew
      rw [State.workers_setWorker_of_ne hsecond] at hrival
      exact hsingle new hnew second rival hrival hptr
    · subst second
      rw [State.workers_setWorker_of_ne hfirst] at hnew
      rw [State.workers_setWorker_self] at hrival
      exact (hsingle rival hrival first new hnew hptr.symm).symm
    · rw [State.workers_setWorker_of_ne hfirst] at hnew
      rw [State.workers_setWorker_of_ne hsecond] at hrival
      exact hinv.single first new hnew second rival hrival hptr

/-- A store to one pointer: what its callers and its worker need afterwards. -/
theorem Inv.setWord (hinv : Inv pointer state) {word : Meta}
    (hnames : pointer.isPresent word = false →
      pointer.getObjectId word = (state.denotes ptr).objId)
    (hmarked : ∀ thread, ∀ call ∈ state.calls thread, call.ptr = ptr →
      ∀ status ∈ state.scopes thread, pointer.isPresent word = true →
        pointer.isEvacuation word = true → Observed state status)
    (hcalls : ∀ thread, ∀ call ∈ state.calls thread, call.ptr = ptr →
      CallOk pointer (state.setWord ptr word).shared state.denotes thread ptr
        call.pc)
    (hworkers : ∀ id, ∀ worker ∈ state.workers id, worker.ptr = ptr →
      WorkerOk pointer (state.setWord ptr word).shared state.denotes state.phase
        id ptr worker.pc) :
    Inv pointer (state.setWord ptr word) where
  names other hother := by
    by_cases heq : other = ptr
    · subst other
      simp only [State.word, State.setWord, Heap.metas_setMeta_self] at hother ⊢
      exact hnames hother
    · simp only [State.word, State.setWord, Heap.metas_setMeta_of_ne _ _ heq]
        at hother ⊢
      exact hinv.names other hother
  scopes := hinv.scopes
  marked thread call hcall status hstatus hmark := by
    by_cases heq : call.ptr = ptr
    · simp only [Marked, State.setWord, heq, Heap.metas_setMeta_self] at hmark
      exact hmarked thread call hcall heq status hstatus hmark.1 hmark.2
    · simp only [Marked, State.setWord, Heap.metas_setMeta_of_ne _ _ heq] at hmark
      exact hinv.marked thread call hcall status hstatus hmark
  calls thread call hcall := by
    by_cases heq : call.ptr = ptr
    · rw [heq]
      exact hcalls thread call hcall heq
    · refine (hinv.calls thread call hcall).frame ?_ ?_ ?_ <;>
        simp only [State.setWord, Heap.metas_setMeta_of_ne _ _ heq] <;> tauto
  workers id worker hworker := by
    by_cases heq : worker.ptr = ptr
    · rw [heq]
      exact hworkers id worker hworker heq
    · refine (hinv.workers id worker hworker).frame ?_ ?_ ?_ <;>
        simp only [WorkerHolds, Marked, State.setWord,
          Heap.metas_setMeta_of_ne _ _ heq] <;> tauto
  single := hinv.single

/-- Taking a free lock takes it from nobody. -/
theorem Inv.acquire (hinv : Inv pointer state) {key : ℕ}
    (party : Party count numGcThreads) (hfree : state.owner key = none) :
    Inv pointer (state.setOwner key (some party)) := by
  have hkeep : ∀ other holder, state.shared.lockOwner other = some holder →
      (state.setOwner key (some party)).shared.lockOwner other = some holder := by
    intro other holder hholder
    have hne : other ≠ key := by
      rintro rfl
      cases hfree.symm.trans hholder
    exact (Function.update_of_ne hne ..).trans hholder
  exact {
    names := hinv.names
    scopes := hinv.scopes
    marked := hinv.marked
    calls := fun thread call hcall =>
      (hinv.calls thread call hcall).frame (fun other => hkeep other _)
        (fun _ _ _ => id) (fun _ => id)
    workers := fun id worker hworker =>
      (hinv.workers id worker hworker).frame (hkeep _ _) (fun hpresent => hpresent)
        (fun _ hmarked => hmarked)
    single := hinv.single }

/-- Giving back a lock that no other position relies on. -/
theorem Inv.release (hinv : Inv pointer state) {key : ℕ}
    (hcalls : ∀ thread, ∀ call ∈ state.calls thread,
      state.owner key = some (.thread thread) → call.pc = .returned)
    (hworkers : ∀ id, ∀ worker ∈ state.workers id,
      state.owner key ≠ some (.worker id)) :
    Inv pointer (state.setOwner key none) := by
  have hkeep : ∀ other holder, state.shared.lockOwner other = some holder →
      state.owner key ≠ some holder →
        (state.setOwner key none).shared.lockOwner other = some holder := by
    intro other holder hholder hnot
    have hne : other ≠ key := by
      rintro rfl
      exact hnot hholder
    exact (Function.update_of_ne hne ..).trans hholder
  exact {
    names := hinv.names
    scopes := hinv.scopes
    marked := hinv.marked
    calls := fun thread call hcall => by
      by_cases howner : state.owner key = some (.thread thread)
      · rw [hcalls thread call hcall howner]
        trivial
      · exact (hinv.calls thread call hcall).frame
          (fun other hother => hkeep other _ hother howner) (fun _ _ _ => id)
          (fun _ => id)
    workers := fun id worker hworker =>
      (hinv.workers id worker hworker).frame
        (fun hholds => hkeep _ _ hholds (hworkers id worker hworker))
        (fun hpresent => hpresent) (fun _ hmarked => hmarked)
    single := hinv.single }

/-- A mutator's store of a local address: nobody else has the lock of the
object, and the evacuation mark is gone. -/
theorem Inv.setWord_local (hinv : Inv pointer state) {word : Meta}
    (hpresent : pointer.isPresent word = true)
    (hclear : pointer.isEvacuation word = false)
    (hcalls : ∀ thread, ∀ call ∈ state.calls thread, call.ptr = ptr →
      state.owner (state.denotes ptr).objId = some (.thread thread) →
        pointer.isPresent (state.word ptr) = false →
          ∃ key addr, call.pc = .setPresent key addr [])
    (hworkers : ∀ id, state.owner (state.denotes ptr).objId ≠ some (.worker id)) :
    Inv pointer (state.setWord ptr word) := by
  refine hinv.setWord (fun habsent => ?_) ?_ ?_ ?_
  · cases habsent.symm.trans hpresent
  · intro _ _ _ _ _ _ _ hevacuation
    cases hclear.symm.trans hevacuation
  · intro thread call hcall hptr
    subst hptr
    have hok := hinv.calls thread call hcall
    by_cases hwindow : state.owner (state.denotes call.ptr).objId =
        some (.thread thread) ∧ pointer.isPresent (state.word call.ptr) = false
    · obtain ⟨key, addr, hpc⟩ :=
        hcalls thread call hcall rfl hwindow.1 hwindow.2
      rw [hpc] at hok ⊢
      exact ⟨hok.1, .inl rfl⟩
    · refine hok.frame ?_ (fun _ _ _ _ => ?_) fun howner habsent => ?_
      · exact fun _ howner => howner
      · simpa only [State.setWord, Heap.metas_setMeta_self] using hpresent
      · exact absurd ⟨howner, habsent⟩ hwindow
  · intro id worker hworker hptr
    subst hptr
    refine (hinv.workers id worker hworker).frame ?_ (fun _ => ?_) ?_
    · exact fun hholds => hholds
    · simpa only [State.setWord, Heap.metas_setMeta_self] using hpresent
    · exact fun hholds _ => absurd hholds (hworkers id)

/-! ### Steps of the workers -/

variable {worker : Worker} {after : State Meta count numGcThreads}
variable {copyAddr : Option ℕ}

/-- While regions are written back, no mutator in a scope is in a call on a
marked pointer: the round has waited for those that could have been. -/
theorem Inv.outside_of_writing (hinv : Inv pointer state)
    (hphase : state.phase = .writing) {call : Call Meta}
    (hcall : call ∈ state.calls thread)
    (hmarked : Marked pointer state.shared call.ptr) :
    state.scopes thread = none := by
  cases hscope : state.scopes thread with
  | none => rfl
  | some status =>
      rcases hinv.marked thread call hcall status hscope hmarked with hnow | hnow
      · cases hphase.symm.trans hnow
      · cases hphase.symm.trans hnow.1

/-- The lock that opens a worker's visit. -/
theorem Inv.lockObject (hinv : Inv pointer state)
    (hworker : worker ∈ state.workers id) {pc : WorkerPc}
    (hok : WorkerHolds (state.setOwner (state.denotes worker.ptr).objId
        (some (.worker id))).shared state.denotes id worker.ptr →
      WorkerOk pointer state.shared state.denotes state.phase id worker.ptr
        worker.pc →
      WorkerOk pointer (state.setOwner (state.denotes worker.ptr).objId
        (some (.worker id))).shared state.denotes state.phase id worker.ptr pc)
    (hstep : lockObject state id worker pc = some after) : Inv pointer after := by
  rw [Protocol.lockObject] at hstep
  split at hstep <;> cases hstep
  rename_i hfree
  refine (hinv.acquire (.worker id) hfree).setWorker ?_ ?_
  · rintro _ ⟨⟩
    exact hok (Function.update_self ..) (hinv.workers id worker hworker)
  · rintro _ ⟨⟩
    exact hinv.single id worker hworker

/-- The store of a worker, after which only its unlock is left. -/
theorem Inv.store (hinv : Inv pointer state)
    (hworker : worker ∈ state.workers id)
    (hholds : WorkerHolds state.shared state.denotes id worker.ptr) {word : Meta}
    (hnames : pointer.isPresent word = false →
      pointer.getObjectId word = (state.denotes worker.ptr).objId)
    (hmarked : ∀ thread, ∀ call ∈ state.calls thread, call.ptr = worker.ptr →
      ∀ status ∈ state.scopes thread, pointer.isPresent word = true →
        pointer.isEvacuation word = true → Observed state status)
    (hcalls : ∀ thread, ∀ call ∈ state.calls thread, call.ptr = worker.ptr →
      CallOk pointer (state.setWord worker.ptr word).shared state.denotes thread
        worker.ptr call.pc) :
    Inv pointer ((state.setWord worker.ptr word).setWorker id
      (some ⟨worker.ptr, .unlock⟩)) := by
  have hunlock : Inv pointer (state.setWorker id (some ⟨worker.ptr, .unlock⟩)) := by
    refine hinv.setWorker ?_ ?_
    · rintro _ ⟨⟩
      exact hholds
    · rintro _ ⟨⟩
      exact hinv.single id worker hworker
  refine hunlock.setWord hnames hmarked hcalls fun other rival hrival hptr => ?_
  obtain rfl : other = id :=
    hunlock.single id ⟨worker.ptr, .unlock⟩ State.workers_setWorker_self other
      rival hrival hptr
  rw [State.workers_setWorker_self, Option.mem_some_iff] at hrival
  subst hrival
  exact hholds

/-- A store that keeps the object local does not disturb any call. -/
theorem Inv.store_present (hinv : Inv pointer state)
    (hworker : worker ∈ state.workers id)
    (hholds : WorkerHolds state.shared state.denotes id worker.ptr)
    (hpresent : pointer.isPresent (state.word worker.ptr) = true) {word : Meta}
    (hword : pointer.isPresent word = true)
    (hmarked : ∀ thread, ∀ call ∈ state.calls thread, call.ptr = worker.ptr →
      ∀ status ∈ state.scopes thread, Observed state status) :
    Inv pointer ((state.setWord worker.ptr word).setWorker id
      (some ⟨worker.ptr, .unlock⟩)) := by
  refine hinv.store hworker hholds (fun habsent => ?_) ?_ ?_
  · cases hword.symm.trans habsent
  · exact fun thread call hcall hptr status hstatus _ _ =>
      hmarked thread call hcall hptr status hstatus
  · intro thread call hcall hptr
    rw [← hptr] at hpresent ⊢
    refine (hinv.calls thread call hcall).frame ?_ (fun _ _ _ _ => ?_) ?_
    · exact fun _ howner => howner
    · simpa only [State.setWord, Heap.metas_setMeta_self] using hword
    · exact fun _ habsent => absurd (hpresent.symm.trans habsent) (by simp)

/-- `gc_wb`: the stored id is the right one, and a call that would still see
the local address in the id it loaded is excluded. -/
theorem Inv.gcWb (hinv : Inv pointer state) (hworker : worker ∈ state.workers id)
    (hpc : worker.pc = .gcStore)
    (hstale : ∀ thread, ∀ call ∈ state.calls thread, call.ptr = worker.ptr →
      state.scopes thread = none → ∀ word, call.pc = .checkPresent word →
        pointer.isPresent word = false) :
    Inv pointer ((state.setWord worker.ptr
      (gcStore pointer state worker.ptr none)).setWorker id
        (some ⟨worker.ptr, .unlock⟩)) := by
  have hok := hinv.workers id worker hworker
  rw [hpc] at hok
  obtain ⟨hphase, hmarked, hholds⟩ := hok
  refine hinv.store hworker hholds (fun _ => ?_) ?_ ?_
  · exact pointer.getObjectId_gcWb _ _ _ _ (state.denotes worker.ptr).objId_lt
  · intro _ _ _ _ _ _ hpresent _
    rw [gcStore, pointer.isPresent_gcWb] at hpresent
    cases hpresent
  · intro thread call hcall hptr
    have houtside := hinv.outside_of_writing hphase hcall (hptr ▸ hmarked)
    rw [← hptr]
    refine (hinv.calls thread call hcall).frame ?_ ?_ ?_
    · exact fun _ howner => howner
    · intro word hcheck hpresent _
      rw [hstale thread call hcall hptr houtside word hcheck] at hpresent
      cases hpresent
    · intro _ _
      simp only [State.setWord, Heap.metas_setMeta_self, gcStore,
        pointer.isPresent_gcWb]

theorem Inv.workerStep (hinv : Inv pointer state)
    (hworker : worker ∈ state.workers id)
    (hstale : copyAddr = none → worker.pc = .gcStore →
      ∀ thread, ∀ call ∈ state.calls thread, call.ptr = worker.ptr →
        state.scopes thread = none → ∀ word, call.pc = .checkPresent word →
          pointer.isPresent word = false)
    (hstep : workerStep pointer state id copyAddr worker = some after) :
    Inv pointer after := by
  have hok := hinv.workers id worker hworker
  cases hpc : worker.pc with
  | markLock =>
      simp only [Protocol.workerStep, hpc] at hstep
      refine hinv.lockObject hworker (fun hholds hok => ?_) hstep
      rw [hpc] at hok
      exact ⟨hok.1, hok.2, hholds⟩
  | setEvacuation =>
      simp only [Protocol.workerStep, hpc, Option.some.injEq] at hstep
      subst hstep
      rw [hpc] at hok
      obtain ⟨hphase, hpresent, hholds⟩ := hok
      exact hinv.store_present hworker hholds hpresent
        (pointer.isPresent_setEvacuation _ hpresent)
        fun _ _ _ _ _ _ => .inl hphase
  | writeBackLock =>
      simp only [Protocol.workerStep, hpc] at hstep
      refine hinv.lockObject hworker (fun hholds hok => ?_) hstep
      rw [hpc] at hok
      exact ⟨hok.1, hok.2, hholds⟩
  | swapOut =>
      simp only [Protocol.workerStep, hpc, Option.some.injEq] at hstep
      subst hstep
      rw [hpc] at hok
      obtain ⟨hphase, hpresent, hholds⟩ := hok
      refine hinv.setWorker ?_ ?_ <;> rintro _ ⟨⟩
      · by_cases hevacuation : pointer.isEvacuation (state.word worker.ptr) = true
        · rw [if_pos hevacuation]
          exact ⟨hphase, ⟨hpresent, hevacuation⟩, hholds⟩
        · rw [if_neg hevacuation]
          exact hholds
      · exact hinv.single id worker hworker
  | gcStore =>
      simp only [Protocol.workerStep, hpc] at hstep
      split at hstep <;> cases hstep
      rw [hpc] at hok
      obtain ⟨hphase, hmarked, hholds⟩ := hok
      cases copyAddr with
      | none => exact hinv.gcWb hworker hpc (hstale rfl hpc)
      | some addr =>
          refine hinv.store_present hworker hholds hmarked.1
            (pointer.isPresent_gcCopy _ _ hmarked.1) ?_
          intro thread call hcall hptr status hstatus
          have houtside :=
            hinv.outside_of_writing hphase hcall (hptr ▸ hmarked)
          cases houtside.symm.trans hstatus
  | unlock =>
      simp only [Protocol.workerStep, hpc, Option.some.injEq] at hstep
      subst hstep
      rw [hpc] at hok
      have hdone : Inv pointer (state.setWorker id none) :=
        hinv.setWorker (by simp) (by simp)
      refine hdone.release ?_ ?_
      · intro thread _ _ howner
        cases Option.some.inj (Eq.trans (Eq.symm hok) howner)
      · intro other rival hrival howner
        obtain rfl : id = other := by
          simpa using Option.some.inj (Eq.trans (Eq.symm hok) howner)
        rw [State.workers_setWorker_self] at hrival
        cases hrival

/-! ### Steps of the threads -/

variable {call : Call Meta} {pc : Pc Meta} {objAddr : ℕ}

theorem Inv.moveCall (hinv : Inv pointer state)
    (hcall : call ∈ state.calls thread)
    (hok : CallOk pointer state.shared state.denotes thread call.ptr pc) :
    Inv pointer (state.setCall thread (some ⟨call.ptr, pc⟩)) := by
  refine hinv.setCall ?_ ?_
  · rintro _ ⟨⟩
    exact hok
  · rintro _ ⟨⟩
    exact hinv.marked thread call hcall

/-- The store of `set_present` under the lock. -/
theorem Inv.setPresent (hinv : Inv pointer state)
    (hcall : call ∈ state.calls thread) {key : ℕ}
    (hholds : Holds state.shared state.denotes thread call.ptr key) (addr : ℕ) :
    Inv pointer ((state.setWord call.ptr
      (pointer.setPresent (state.word call.ptr) addr)).setCall thread
        (some ⟨call.ptr, .setPresent key addr []⟩)) := by
  have howner : state.owner (state.denotes call.ptr).objId =
      some (.thread thread) := hholds.1 ▸ hholds.2
  have hmoved : Inv pointer
      (state.setCall thread (some ⟨call.ptr, .setPresent key addr []⟩)) :=
    hinv.moveCall hcall ⟨hholds, .inl rfl⟩
  refine hmoved.setWord_local (pointer.isPresent_setPresent _ _)
    (pointer.isEvacuation_setPresent _ _) ?_ fun id hworker => ?_
  · intro other rival hrival hptr hother _
    obtain rfl : thread = other := by
      simpa using Option.some.inj (howner.symm.trans hother)
    rw [State.calls_setCall_self, Option.mem_some_iff] at hrival
    exact ⟨key, addr, hrival ▸ rfl⟩
  · cases Option.some.inj (howner.symm.trans hworker)

theorem Inv.unlockCall (hinv : Inv pointer state)
    (hcall : call ∈ state.calls thread) {key : ℕ}
    (hholds : Holds state.shared state.denotes thread call.ptr key) :
    Inv pointer ((state.setOwner key none).setCall thread
      (some ⟨call.ptr, .returned⟩)) := by
  have hmoved : Inv pointer
      (state.setCall thread (some ⟨call.ptr, .returned⟩)) :=
    hinv.moveCall hcall trivial
  refine hmoved.release ?_ fun id _ _ hworker => ?_
  · intro other rival hrival hother
    obtain rfl : thread = other := by
      simpa using Option.some.inj (hholds.2.symm.trans hother)
    rw [State.calls_setCall_self, Option.mem_some_iff] at hrival
    exact hrival ▸ rfl
  · cases Option.some.inj (hholds.2.symm.trans hworker)

/-- Every step of a `swap_in`. -/
theorem Inv.swapIn (hinv : Inv pointer state) (hcall : call ∈ state.calls thread)
    (hstep : SwapIn.step pointer (fun slot => [slot]) (.thread thread) call.ptr
      objAddr state.shared call.pc = some (next, pc)) :
    Inv pointer ({ state with shared := next }.setCall thread
      (some ⟨call.ptr, pc⟩)) := by
  have hok := hinv.calls thread call hcall
  cases hpc : call.pc with
  | readId =>
      rw [hpc] at hstep
      cases hstep
      exact hinv.moveCall hcall ⟨id, hinv.names call.ptr⟩
  | checkPresent word =>
      rw [hpc] at hstep hok
      rw [SwapIn.step] at hstep
      split at hstep <;> cases hstep <;> rename_i hpresent
      · exact hinv.moveCall hcall trivial
      · refine hinv.moveCall hcall (hok.2 ?_)
        by_contra hword
        exact hpresent (hok.1 (by simpa using hword))
  | lock key =>
      rw [hpc] at hstep hok
      rw [SwapIn.step] at hstep
      split at hstep <;> cases hstep
      rename_i hfree
      exact (hinv.acquire (.thread thread) hfree).moveCall hcall
        ⟨hok, Function.update_self ..⟩
  | checkAgain key =>
      rw [hpc] at hstep hok
      rw [SwapIn.step] at hstep
      split at hstep <;> cases hstep <;> rename_i hpresent
      · exact hinv.moveCall hcall hok
      · exact hinv.moveCall hcall ⟨hok, by simpa using hpresent⟩
  | allocate key =>
      rw [hpc] at hstep hok
      rw [SwapIn.step] at hstep
      split at hstep <;> cases hstep
      refine Inv.moveCall (hinv.of_shared ?_ ?_) hcall ?_
      · rfl
      · rfl
      · exact hok
  | readDsId key addr | readObject key addr dsId | decRefCnt key addr =>
      rw [hpc] at hstep hok
      cases hstep
      refine Inv.moveCall (hinv.of_shared ?_ ?_) hcall ?_
      · rfl
      · rfl
      · exact hok
  | checkShared key addr =>
      rw [hpc] at hstep hok
      cases hstep
      refine hinv.moveCall hcall ⟨hok.1, .inr ⟨?_, hok.2⟩⟩
      simp [SwapIn.aliasesOf]
  | setPresent key addr pending =>
      rw [hpc] at hstep hok
      cases pending with
      | nil =>
          cases hstep
          exact hinv.moveCall hcall hok.1
      | cons slot pending =>
          cases hstep
          rcases hok.2 with hnil | ⟨hpending, -⟩
          · cases hnil
          · cases hpending
            exact hinv.setPresent hcall hok.1 addr
  | unlock key =>
      rw [hpc] at hstep hok
      cases hstep
      exact hinv.unlockCall hcall hok
  | returned =>
      rw [hpc] at hstep
      cases hstep

theorem Inv.enterScope (hinv : Inv pointer state)
    (hidle : (state.calls thread).isNone) :
    Inv pointer (state.setScope thread (some state.expectedStatus)) where
  names := hinv.names
  scopes hphase other status hstatus := by
    by_cases heq : other = thread
    · subst other
      rw [State.scopes_setScope_self, Option.mem_some_iff] at hstatus
      exact hstatus.symm
    · rw [State.scopes_setScope_of_ne heq] at hstatus
      exact hinv.scopes hphase other status hstatus
  marked other call hcall status hstatus := by
    by_cases heq : other = thread
    · subst other
      cases (Option.isNone_iff_eq_none.mp hidle).symm.trans hcall
    · rw [State.scopes_setScope_of_ne heq] at hstatus
      exact hinv.marked other call hcall status hstatus
  calls := hinv.calls
  workers := hinv.workers
  single := hinv.single

theorem Inv.exitScope (hinv : Inv pointer state) :
    Inv pointer (state.setScope thread none) where
  names := hinv.names
  scopes hphase other status hstatus := by
    by_cases heq : other = thread
    · subst other
      rw [State.scopes_setScope_self] at hstatus
      cases hstatus
    · rw [State.scopes_setScope_of_ne heq] at hstatus
      exact hinv.scopes hphase other status hstatus
  marked other call hcall status hstatus := by
    by_cases heq : other = thread
    · subst other
      rw [State.scopes_setScope_self] at hstatus
      cases hstatus
    · rw [State.scopes_setScope_of_ne heq] at hstatus
      exact hinv.marked other call hcall status hstatus
  calls := hinv.calls
  workers := hinv.workers
  single := hinv.single

/-- Outside the two walks a worker can only be giving its lock back. -/
theorem WorkerOk.of_noWalk {phase other : Phase} {pc : WorkerPc}
    (hmarking : phase ≠ .marking) (hwriting : phase ≠ .writing)
    (hok : WorkerOk pointer shared denotes phase id ptr pc) :
    WorkerOk pointer shared denotes other id ptr pc := by
  cases pc with
  | markLock | setEvacuation => exact absurd hok.1 hmarking
  | writeBackLock | swapOut | gcStore => exact absurd hok.1 hwriting
  | unlock => exact hok

theorem Inv.setPhase (hinv : Inv pointer state) {phase : Phase} {expected : Bool}
    (hworkers : (∀ id, (state.workers id).isNone) ∨
      state.phase ≠ .marking ∧ state.phase ≠ .writing)
    (hscopes : phase ≠ .waiting → ∀ thread, ∀ status ∈ state.scopes thread,
      status = expected)
    (hobserved : ∀ thread, ∀ status ∈ state.scopes thread,
      Observed state status →
        Observed { state with phase := phase, expectedStatus := expected } status) :
    Inv pointer { state with phase := phase, expectedStatus := expected } where
  names := hinv.names
  scopes := hscopes
  marked thread call hcall status hstatus hmarked :=
    hobserved thread status hstatus
      (hinv.marked thread call hcall status hstatus hmarked)
  calls := hinv.calls
  workers id worker hworker := by
    rcases hworkers with hnone | ⟨hmarking, hwriting⟩
    · cases (Option.isNone_iff_eq_none.mp (hnone id)).symm.trans hworker
    · exact (hinv.workers id worker hworker).of_noWalk hmarking hwriting
  single := hinv.single

theorem step_call_eq_some
    (hstep : Protocol.step pointer state (.call thread ptr) = some after) :
    pointer.isPresent (state.word ptr) = false ∧
      after = state.setCall thread (some ⟨ptr, .readId⟩) := by
  simp only [Protocol.step] at hstep
  split at hstep <;> cases hstep
  rename_i hguard
  exact ⟨hguard.2, rfl⟩

theorem step_finish_eq_some
    (hstep : Protocol.step pointer state (.finish thread) = some after) :
    after = state.setCall thread none := by
  simp only [Protocol.step] at hstep
  split at hstep <;> cases hstep
  rfl

theorem step_swapIn_eq_some
    (hstep : Protocol.step pointer state (.swapIn thread objAddr) = some after) :
    ∃ call ∈ state.calls thread, ∃ next pc,
      SwapIn.step pointer (fun slot => [slot]) (.thread thread) call.ptr objAddr
        state.shared call.pc = some (next, pc) ∧
      after = { state with shared := next }.setCall thread
        (some ⟨call.ptr, pc⟩) := by
  simp only [Protocol.step] at hstep
  split at hstep
  · cases hstep
  rename_i call hcall
  split at hstep <;> cases hstep
  rename_i hswapIn
  exact ⟨call, hcall, _, _, hswapIn, rfl⟩

/-- A worker's step changes neither a call nor what a pointer denotes. -/
theorem workerStep_keeps {id : Fin numGcThreads} {worker : Worker}
    (hstep : Protocol.workerStep pointer state id copyAddr worker = some after) :
    after.calls = state.calls ∧ after.denotes = state.denotes := by
  cases hpc : worker.pc <;>
    simp only [Protocol.workerStep, Protocol.lockObject, hpc] at hstep
  all_goals
    try split at hstep
  all_goals
    cases hstep
  all_goals
    exact ⟨rfl, rfl⟩

theorem step_work_eq_some {id : Fin numGcThreads}
    (hstep : Protocol.step pointer state (.work id copyAddr) = some after) :
    ∃ worker ∈ state.workers id,
      Protocol.workerStep pointer state id copyAddr worker = some after := by
  simp only [Protocol.step] at hstep
  split at hstep
  · cases hstep
  · rename_i worker hworker
    exact ⟨worker, hworker, hstep⟩

theorem Inv.step {action : Action count numGcThreads} (hinv : Inv pointer state)
    (hfresh : NoStaleId pointer state action)
    (hstep : step pointer state action = some after) : Inv pointer after := by
  cases action with
  | enterScope thread =>
      simp only [Protocol.step] at hstep
      split at hstep <;> cases hstep
      rename_i hguard
      exact hinv.enterScope hguard.2
  | exitScope thread =>
      simp only [Protocol.step] at hstep
      split at hstep <;> cases hstep
      exact hinv.exitScope
  | call thread ptr =>
      obtain ⟨habsent, rfl⟩ := step_call_eq_some hstep
      refine hinv.setCall ?_ ?_
      · rintro _ ⟨⟩
        trivial
      · rintro _ ⟨⟩ status _ hmarked
        cases habsent.symm.trans hmarked.1
  | swapIn thread objAddr =>
      obtain ⟨call, hcall, next, pc, hswapIn, rfl⟩ := step_swapIn_eq_some hstep
      exact hinv.swapIn hcall hswapIn
  | finish thread =>
      rw [step_finish_eq_some hstep]
      exact hinv.setCall (by simp) (by simp)
  | migrate thread ptr objAddr =>
      simp only [Protocol.step] at hstep
      split at hstep <;> cases hstep
      rename_i hguard
      obtain ⟨-, hpresent, -, hfree, -⟩ := hguard
      refine hinv.setWord_local (pointer.isPresent_mutatorCopy _ _ hpresent)
        (pointer.isEvacuation_mutatorCopy _ _ hpresent) ?_ fun id hworker => ?_
      · intro other call _ _ howner
        cases hfree.symm.trans howner
      · cases hfree.symm.trans hworker
  | startMarking =>
      simp only [Protocol.step] at hstep
      split at hstep <;> cases hstep
      rename_i hphase
      refine hinv.setPhase (.inr (by simp [hphase])) (fun _ => ?_) ?_
      · exact hinv.scopes (by simp [hphase])
      · exact fun _ _ _ _ => .inl rfl
  | flipStatus =>
      simp only [Protocol.step] at hstep
      split at hstep <;> cases hstep
      rename_i hguard
      refine hinv.setPhase (.inl hguard.2) (fun hphase => absurd rfl hphase) ?_
      intro other status hstatus _
      refine .inr ⟨rfl, ?_⟩
      rw [Bool.not_not]
      exact hinv.scopes (by simp [hguard.1]) other status hstatus
  | startWriting =>
      simp only [Protocol.step] at hstep
      split at hstep <;> cases hstep
      rename_i hguard
      have hcurrent : ∀ other, ∀ status ∈ state.scopes other,
          status = state.expectedStatus := by
        intro other status hstatus
        by_contra hne
        exact hguard.2 other (Bool.eq_not.mpr hne ▸ hstatus)
      refine hinv.setPhase (.inr (by simp [hguard.1])) (fun _ => hcurrent) ?_
      rintro other status hstatus (hnow | ⟨-, hold⟩)
      · cases hguard.1.symm.trans hnow
      · exact absurd (hcurrent other status hstatus) (Bool.eq_not.mp hold)
  | endRound =>
      simp only [Protocol.step] at hstep
      split at hstep <;> cases hstep
      rename_i hguard
      refine hinv.setPhase (.inl hguard.2) (fun _ => ?_) ?_
      · exact hinv.scopes (by simp [hguard.1])
      · rintro other status - (hnow | ⟨hnow, -⟩) <;>
          cases hguard.1.symm.trans hnow
  | pick id ptr =>
      simp only [Protocol.step] at hstep
      split at hstep
      · rename_i hguard
        obtain ⟨-, hunvisited, hpresent⟩ := hguard
        have hsingle : ∀ other, ∀ rival ∈ state.workers other,
            rival.ptr = ptr → other = id := fun other rival hrival hptr =>
          absurd hptr (hunvisited other rival hrival)
        split at hstep <;> cases hstep <;> rename_i hphase
        · refine hinv.setWorker ?_ ?_ <;> rintro _ ⟨⟩
          · exact ⟨hphase, hpresent⟩
          · exact hsingle
        · refine hinv.setWorker ?_ ?_ <;> rintro _ ⟨⟩
          · exact ⟨hphase, hpresent⟩
          · exact hsingle
      · cases hstep
  | work id copyAddr =>
      obtain ⟨worker, hworker, hwork⟩ := step_work_eq_some hstep
      refine hinv.workerStep hworker (fun hnone hpc => ?_) hwork
      exact hfresh id worker (by rw [hnone]) hworker hpc

/-- An assignment to a pointer that no call and no worker is on. -/
theorem Inv.assign (hinv : Inv pointer state) {word : Meta} {object : Denoted}
    (hnames : pointer.isPresent word = false →
      pointer.getObjectId word = object.objId)
    (hcalls : ∀ thread, ∀ call ∈ state.calls thread, call.ptr ≠ ptr)
    (hworkers : ∀ id, ∀ worker ∈ state.workers id, worker.ptr ≠ ptr) :
    Inv pointer (state.assign ptr word object) where
  names other hother := by
    by_cases heq : other = ptr
    · subst other
      simp only [State.word, State.assign, State.setWord,
        Heap.metas_setMeta_self, Function.update_self] at hother ⊢
      exact hnames hother
    · simp only [State.word, State.assign, State.setWord,
        Heap.metas_setMeta_of_ne _ _ heq, Function.update_of_ne heq] at hother ⊢
      exact hinv.names other hother
  scopes := hinv.scopes
  marked thread call hcall status hstatus hmarked := by
    have hne := hcalls thread call hcall
    simp only [Marked, State.assign, State.setWord,
      Heap.metas_setMeta_of_ne _ _ hne] at hmarked
    exact hinv.marked thread call hcall status hstatus hmarked
  calls thread call hcall := by
    have hne := hcalls thread call hcall
    have hok : CallOk pointer (state.setWord ptr word).shared state.denotes thread
        call.ptr call.pc := by
      refine (hinv.calls thread call hcall).frame ?_ ?_ ?_ <;>
        simp only [State.setWord, Heap.metas_setMeta_of_ne _ _ hne] <;> tauto
    exact hok.of_denotes (Function.update_of_ne hne ..)
  workers id worker hworker := by
    have hne := hworkers id worker hworker
    have hok : WorkerOk pointer (state.setWord ptr word).shared state.denotes
        state.phase id worker.ptr worker.pc := by
      refine (hinv.workers id worker hworker).frame ?_ ?_ ?_ <;>
        simp only [WorkerHolds, Marked, State.setWord,
          Heap.metas_setMeta_of_ne _ _ hne] <;> tauto
    exact hok.of_denotes (Function.update_of_ne hne ..)
  single := hinv.single

theorem noStaleId_of_thread {action : Action count numGcThreads}
    (hthread : threadOf action = some thread) :
    NoStaleId pointer state action := by
  rintro id worker rfl
  cases hthread

/-- Calls of other threads are not touched. -/
theorem calls_of_step {action : Action count numGcThreads}
    (hother : threadOf action ≠ some thread)
    (hstep : Protocol.step pointer state action = some after) :
    after.calls thread = state.calls thread := by
  cases action with
  | call runner ptr =>
      have hne : thread ≠ runner := fun heq => hother (by rw [heq, threadOf])
      rw [(step_call_eq_some hstep).2, State.calls_setCall_of_ne hne]
  | swapIn runner objAddr =>
      have hne : thread ≠ runner := fun heq => hother (by rw [heq, threadOf])
      obtain ⟨call, -, next, pc, -, rfl⟩ := step_swapIn_eq_some hstep
      exact State.calls_setCall_of_ne hne
  | finish runner =>
      have hne : thread ≠ runner := fun heq => hother (by rw [heq, threadOf])
      rw [step_finish_eq_some hstep, State.calls_setCall_of_ne hne]
  | work id copyAddr =>
      obtain ⟨worker, -, hwork⟩ := step_work_eq_some hstep
      exact congrFun (workerStep_keeps hwork).1 thread
  | _ =>
      simp only [Protocol.step] at hstep
      repeat' split at hstep
      all_goals
        cases hstep
      all_goals
        rfl

/-- The parties of the protocol do not change what a pointer denotes. -/
theorem denotes_of_step {action : Action count numGcThreads}
    (hstep : Protocol.step pointer state action = some after) :
    after.denotes = state.denotes := by
  cases action with
  | work id copyAddr =>
      obtain ⟨worker, -, hwork⟩ := step_work_eq_some hstep
      exact (workerStep_keeps hwork).2
  | _ =>
      simp only [Protocol.step] at hstep
      repeat' split at hstep
      all_goals
        cases hstep
      all_goals
        rfl

theorem not_isNull_of_isPresent {word : Meta}
    (hpresent : pointer.isPresent word = true) : pointer.isNull word = false := by
  by_contra hnull
  have habsent := pointer.isPresent_of_isNull word (by simpa using hnull)
  cases hpresent.symm.trans habsent

/-- The store of a worker leaves a local address or a remote object. -/
theorem WorkerOk.not_isNull_gcStore
    (hmarked : Marked pointer state.shared ptr) :
    pointer.isNull (gcStore pointer state ptr copyAddr) = false := by
  cases copyAddr with
  | none =>
      exact pointer.isNull_gcWb _ _ _ _ (state.denotes ptr).objectSize_pos
        (state.denotes ptr).objectSize_lt
  | some addr =>
      exact not_isNull_of_isPresent (pointer.isPresent_gcCopy _ _ hmarked.1)

theorem word_setWord_of {word : Meta} (hword : pointer.isNull word = false)
    (slot : Slot) :
    (state.setWord ptr word).word slot = state.word slot ∨
      pointer.isNull ((state.setWord ptr word).word slot) = false := by
  by_cases heq : slot = ptr
  · subst slot
    right
    simpa only [State.word, State.setWord, Heap.metas_setMeta_self] using hword
  · left
    exact Heap.metas_setMeta_of_ne _ _ heq

/-- A word that a step changes is not null afterwards. -/
theorem Inv.word_of_step {action : Action count numGcThreads}
    (hinv : Inv pointer state)
    (hstep : Protocol.step pointer state action = some after) (slot : Slot) :
    after.word slot = state.word slot ∨ pointer.isNull (after.word slot) = false := by
  cases action with
  | swapIn runner objAddr =>
      obtain ⟨call, -, next, pc, hswapIn, rfl⟩ := step_swapIn_eq_some hstep
      rcases SwapIn.metas_step hswapIn with hsame | ⟨_, addr, _, _, hstored⟩
      · exact .inl hsame
      · right
        rw [State.word, State.setCall, hstored]
        exact not_isNull_of_isPresent (pointer.isPresent_setPresent _ _)
  | migrate runner ptr objAddr =>
      simp only [Protocol.step] at hstep
      split at hstep <;> cases hstep
      rename_i hguard
      exact word_setWord_of (not_isNull_of_isPresent
        (pointer.isPresent_mutatorCopy _ _ hguard.2.1)) slot
  | work id copyAddr =>
      obtain ⟨worker, hworker, hwork⟩ := step_work_eq_some hstep
      have hok := hinv.workers id worker hworker
      cases hpc : worker.pc with
      | setEvacuation =>
          rw [hpc] at hok
          simp only [Protocol.workerStep, hpc, Option.some.injEq] at hwork
          subst hwork
          exact word_setWord_of (not_isNull_of_isPresent
            (pointer.isPresent_setEvacuation _ hok.2.1)) slot
      | gcStore =>
          rw [hpc] at hok
          simp only [Protocol.workerStep, hpc] at hwork
          split at hwork <;> cases hwork
          exact word_setWord_of (WorkerOk.not_isNull_gcStore hok.2.1) slot
      | markLock | writeBackLock =>
          simp only [Protocol.workerStep, Protocol.lockObject, hpc] at hwork
          split at hwork <;> cases hwork
          exact .inl rfl
      | swapOut | unlock =>
          simp only [Protocol.workerStep, hpc, Option.some.injEq] at hwork
          subst hwork
          exact .inl rfl
  | _ =>
      simp only [Protocol.step] at hstep
      repeat' split at hstep
      all_goals
        cases hstep
      all_goals
        exact .inl rfl

theorem AtRest.inv (hrest : AtRest pointer state) : Inv pointer state where
  names := hrest.names
  scopes _ thread status hstatus := by
    cases (hrest.scopes thread).symm.trans hstatus
  marked thread call hcall := by
    cases (hrest.calls thread).symm.trans hcall
  calls thread call hcall := by
    cases (hrest.calls thread).symm.trans hcall
  workers id worker hworker := by
    cases (hrest.workers id).symm.trans hworker
  single id worker hworker := by
    cases (hrest.workers id).symm.trans hworker

theorem inv_of_reachable
    (hreachable : (machine pointer).ReachableUnder (NoStaleId pointer) state) :
    Inv pointer state :=
  hreachable.invariant (Inv pointer) (fun hrest => AtRest.inv hrest)
    fun hinv hfresh hstep => hinv.step hfresh hstep

theorem CallOk.lockKey_eq {pc : Pc Meta} {key : ℕ}
    (hok : CallOk pointer shared denotes thread ptr pc)
    (hkey : key ∈ lockKey pc) : key = (denotes ptr).objId := by
  cases pc with
  | readId | checkPresent word | returned => cases hkey
  | lock held =>
      cases hkey
      exact hok
  | checkAgain held | decRefCnt held addr | unlock held =>
      cases hkey
      exact hok.1
  | allocate held | readDsId held addr | readObject held addr dsId
  | checkShared held addr | setPresent held addr pending =>
      cases hkey
      exact hok.1.1

end Steps

/-- In every run in which no pointer is written back between the two loads of a
thread outside any scope, `swap_in` locks and reads by the id of the object
that its pointer denotes. -/
theorem loadsDenoted {state : State Meta count numGcThreads}
    (hreachable : (machine pointer).ReachableUnder (NoStaleId pointer) state) :
    LoadsDenoted state := by
  intro thread call hcall key hkey
  exact ((inv_of_reachable hreachable).calls thread call hcall).lockKey_eq hkey

/-! ## A mutator, the pager and one GC round -/

/-- Object 7, swapped out behind every pointer. -/
def remoteObject : Denoted where
  dsId := 0
  objectSize := 32
  objId := 7
  dsId_lt := by decide
  objectSize_pos := by decide
  objectSize_lt := by decide
  objId_lt := by decide

/-- Format II of object 7: 32 bytes, not present, not shared. -/
def remoteWord : ℕ :=
  0x1C008100

theorem getObjectId_remoteWord :
    (FarMemPtrMeta.pointerHpp 16).getObjectId remoteWord = 7 := by
  decide

/-- Thread 0 is a mutator, thread 1 the pager. -/
def swappedOut : State ℕ 2 1 where
  shared := {
    heap := {
      metas := fun _ => remoteWord
      objects := fun _ => none
      device := fun _ _ => []
      refCnt := fun _ => 0 }
    lockOwner := fun _ => none }
  denotes _ := remoteObject
  calls _ := none
  scopes _ := none
  expectedStatus := false
  phase := .idle
  workers _ := none

/-- The mutator swaps the object in. -/
def mutatorRun : List (Action 2 1) :=
  [Action.enterScope 0, Action.call 0 8] ++ List.replicate 12 (Action.swapIn 0 4096) ++
    [Action.finish 0, Action.exitScope 0]

/-- A GC round up to the write-back of the object. -/
def writeBackRun : List (Action 2 1) :=
  [.startMarking, .pick 0 8, .work 0 none, .work 0 none, .work 0 none,
    .flipStatus, .startWriting, .pick 0 8, .work 0 none, .work 0 none,
    .work 0 none, .work 0 none]

/-- The pager calls after the round. -/
def pagerAfterRun : List (Action 2 1) :=
  mutatorRun ++ writeBackRun ++ .call 1 8 :: List.replicate 4 (.swapIn 1 8192)

/-- The pager has found the object absent and loads the id while it is local;
the round then writes it back before the pager's presence check. -/
def pagerDuringRun : List (Action 2 1) :=
  .call 1 8 :: mutatorRun ++ .swapIn 1 0 :: writeBackRun ++
    List.replicate 2 (.swapIn 1 0)

/-- No call is in progress when a worker may write back. -/
def quietWriteBack (state : State ℕ 2 1) : Action 2 1 → Bool
  | .work _ none => decide (∀ thread, (state.calls thread).isNone)
  | _ => true

theorem noStaleId_of_quietWriteBack {state : State ℕ 2 1} {action : Action 2 1}
    (hcheck : quietWriteBack state action = true) :
    NoStaleId (FarMemPtrMeta.pointerHpp 16) state action := by
  rintro id worker rfl - - thread call hcall
  simp only [quietWriteBack, decide_eq_true_eq] at hcheck
  cases (Option.isNone_iff_eq_none.mp (hcheck thread)).symm.trans hcall

theorem atRest_swappedOut :
    AtRest (FarMemPtrMeta.pointerHpp 16) swappedOut where
  names ptr _ := by
    have hword : swappedOut.word ptr = remoteWord := rfl
    rw [hword, getObjectId_remoteWord]
    rfl
  calls _ := rfl
  scopes _ := rfl
  phase := rfl
  workers _ := rfl

theorem run_pagerAfterRun :
    ∃ state, (machine (FarMemPtrMeta.pointerHpp 16)).run swappedOut
        pagerAfterRun = some state ∧
      state.calls 1 = some ⟨8, .allocate 7⟩ :=
  ⟨_, rfl, by decide⟩

theorem loadsDenoted_pagerAfterRun :
    ∃ state, (machine (FarMemPtrMeta.pointerHpp 16)).run swappedOut
        pagerAfterRun = some state ∧
      state.calls 1 = some ⟨8, .allocate 7⟩ ∧ LoadsDenoted state := by
  obtain ⟨state, hrun, hcall⟩ := run_pagerAfterRun
  exact ⟨state, hrun, hcall, loadsDenoted _ (.of_run
    noStaleId_of_quietWriteBack (.initial atRest_swappedOut) hrun (by decide))⟩

theorem run_pagerDuringRun :
    ∃ state, (machine (FarMemPtrMeta.pointerHpp 16)).run swappedOut
        pagerDuringRun = some state ∧
      state.calls 1 = some ⟨8, .checkAgain 8⟩ ∧ (state.denotes 8).objId = 7 :=
  ⟨_, rfl, by decide, rfl⟩

/-- The pager locks object 8, the bits of the local address, where its pointer
denotes object 7. -/
theorem not_forall_loadsDenoted :
    ¬ ∀ (pointer : FarMemPtrMeta ℕ) (state : State ℕ 2 1),
      (machine pointer).Reachable state → LoadsDenoted state := by
  intro hclaim
  obtain ⟨state, hrun, hcall, hdenotes⟩ := run_pagerDuringRun
  have hkey : 8 = (state.denotes 8).objId :=
    hclaim _ state (.of_run atRest_swappedOut hrun) 1 _ hcall 8 rfl
  exact absurd (hkey.trans hdenotes) (by decide)

end DynamicSwap.Protocol
