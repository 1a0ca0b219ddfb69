import DynamicSwap.Library.Monitor
import DynamicSwap.Swap.Protocol

/-!
# The object locks

`swap_in` and the GC workers take one object lock each and give it back at the
end.  The table of locks therefore always agrees with the positions of the
parties, no wait for an object lock is circular, and the collector waits for no
call that could wait for the collector.  A circle needs the pager: outside any
scope it holds an object lock while it waits for space.
-/

namespace DynamicSwap.ObjectLocks

open Library (Accounted)
open Protocol
open SwapIn (Pc)

variable {Meta : Type} {count numGcThreads : ℕ}

/-- The key that a call has locked. -/
def heldKey : Pc Meta → Option ℕ
  | .lock _ => none
  | pc => lockKey pc

/-- Between `lock_object` and the end of its guard. -/
def holdsLock : WorkerPc → Bool
  | .markLock | .writeBackLock => false
  | .setEvacuation | .swapOut | .gcStore | .unlock => true

def workerKey (denotes : Slot → Denoted) (worker : Worker) : Option ℕ :=
  if holdsLock worker.pc then some (denotes worker.ptr).objId else none

/-- The key that a party holds by its position. -/
def held (state : State Meta count numGcThreads) : Party count numGcThreads → Option ℕ
  | .thread thread => (state.calls thread).bind fun call => heldKey call.pc
  | .worker id => (state.workers id).bind (workerKey state.denotes)

section Accounting

variable {pointer : FarMemPtrMeta Meta}
variable {state after : State Meta count numGcThreads}
variable {thread : Fin count} {id : Fin numGcThreads}

theorem held_setCall (state : State Meta count numGcThreads) (thread : Fin count)
    (call : Option (Call Meta)) :
    held (state.setCall thread call) =
      Function.update (held state) (.thread thread)
        (call.bind fun call => heldKey call.pc) := by
  funext party
  cases party with
  | thread other =>
      by_cases hother : other = thread
      · subst hother
        simp [held]
      · simp [held, hother]
  | worker id => simp [held, State.setCall]

theorem held_setWorker (worker : Option Worker) :
    held (state.setWorker id worker) =
      Function.update (held state) (.worker id)
        (worker.bind (workerKey state.denotes)) := by
  funext party
  cases party with
  | thread thread => simp [held, State.setWorker]
  | worker other =>
      by_cases hother : other = id
      · subst hother
        simp [held, State.setWorker]
      · simp [held, hother, State.setWorker]

theorem held_setCall_of_eq {call : Option (Call Meta)}
    (hsame : held state (.thread thread) = call.bind fun call => heldKey call.pc) :
    held (state.setCall thread call) = held state := by
  rw [held_setCall, ← hsame, Function.update_eq_self]

theorem held_setWorker_of_eq {worker : Option Worker}
    (hsame : held state (.worker id) = worker.bind (workerKey state.denotes)) :
    held (state.setWorker id worker) = held state := by
  rw [held_setWorker, ← hsame, Function.update_eq_self]

theorem held_thread {call : Call Meta} (hcall : call ∈ state.calls thread) :
    held state (.thread thread) = heldKey call.pc := by
  rw [held, Option.mem_def.mp hcall, Option.bind_some]

theorem held_worker {worker : Worker} (hworker : worker ∈ state.workers id) :
    held state (.worker id) = workerKey state.denotes worker := by
  rw [held, Option.mem_def.mp hworker, Option.bind_some]

/-- A step of `swap_in` takes its lock, gives it back or leaves the table and
what the call holds as they are. -/
theorem swapIn_cases {Thread : Type} {caller : Thread} {ptr : Slot} {objAddr : ℕ}
    {shared next : Shared Meta Thread} {pc nextPc : Pc Meta}
    {ring : Slot → List Slot}
    (hstep : SwapIn.step pointer ring caller ptr objAddr shared pc = some (next, nextPc)) :
    (next.lockOwner = shared.lockOwner ∧ heldKey nextPc = heldKey pc) ∨
      (∃ key, pc = .lock key ∧ nextPc = .checkAgain key ∧ shared.lockOwner key = none ∧
        next.lockOwner = Function.update shared.lockOwner key (some caller)) ∨
      ∃ key, pc = .unlock key ∧ nextPc = .returned ∧
        next.lockOwner = Function.update shared.lockOwner key none := by
  cases pc with
  | checkPresent word | checkAgain key | allocate key =>
      rw [SwapIn.step] at hstep
      split at hstep <;> cases hstep <;> exact .inl ⟨rfl, rfl⟩
  | lock key =>
      rw [SwapIn.step] at hstep
      split at hstep <;> cases hstep
      rename_i hfree
      exact .inr (.inl ⟨key, rfl, rfl, hfree, rfl⟩)
  | setPresent key addr pending =>
      cases pending with
      | nil =>
          cases hstep
          exact .inl ⟨rfl, rfl⟩
      | cons slot pending =>
          cases hstep
          exact .inl ⟨rfl, rfl⟩
  | unlock key =>
      cases hstep
      exact .inr (.inr ⟨key, rfl, rfl, rfl⟩)
  | returned => cases hstep
  | _ =>
      cases hstep
      exact .inl ⟨rfl, rfl⟩

theorem accounted_swapIn {call : Call Meta} {objAddr : ℕ} {pc : Pc Meta}
    {next : Shared Meta (Party count numGcThreads)}
    (haccounted : Accounted state.owner (held state))
    (hcall : call ∈ state.calls thread)
    (hstep : SwapIn.step pointer (fun slot => [slot]) (.thread thread) call.ptr objAddr
      state.shared call.pc = some (next, pc)) :
    Accounted ({ state with shared := next }.setCall thread (some ⟨call.ptr, pc⟩)).owner
      (held ({ state with shared := next }.setCall thread (some ⟨call.ptr, pc⟩))) := by
  have hheld := held_thread hcall
  have howner : ({ state with shared := next }.setCall thread
      (some ⟨call.ptr, pc⟩)).owner = next.lockOwner := rfl
  have hafter : held ({ state with shared := next }.setCall thread
      (some ⟨call.ptr, pc⟩)) =
        Function.update (held state) (.thread thread) (heldKey pc) :=
    held_setCall { state with shared := next } thread _
  rw [howner, hafter]
  rcases swapIn_cases hstep with ⟨hsame, hkey⟩ | ⟨key, hpc, rfl, hfree, htable⟩ |
    ⟨key, hpc, rfl, htable⟩
  · rw [hsame, hkey, ← hheld, Function.update_eq_self]
    exact haccounted
  · rw [htable]
    rw [hpc] at hheld
    exact haccounted.acquire hfree hheld
  · rw [htable]
    rw [hpc] at hheld
    exact haccounted.release hheld

theorem accounted_lockObject {worker : Worker} {pc : WorkerPc}
    (haccounted : Accounted state.owner (held state))
    (hworker : worker ∈ state.workers id) (hwaits : holdsLock worker.pc = false)
    (hholds : holdsLock pc = true)
    (hstep : lockObject state id worker pc = some after) :
    Accounted after.owner (held after) := by
  rw [lockObject] at hstep
  split at hstep <;> cases hstep
  rename_i hfree
  rw [held_setWorker]
  have hkey : (some (⟨worker.ptr, pc⟩ : Worker)).bind (workerKey state.denotes) =
      some (state.denotes worker.ptr).objId := by
    simp [workerKey, hholds]
  have hnone : held state (.worker id) = none := by
    simp [held_worker hworker, workerKey, hwaits]
  exact hkey ▸ haccounted.acquire hfree hnone

theorem accounted_workerStep {worker : Worker} {copyAddr : Option ℕ}
    (haccounted : Accounted state.owner (held state))
    (hworker : worker ∈ state.workers id)
    (hstep : workerStep pointer state id copyAddr worker = some after) :
    Accounted after.owner (held after) := by
  have hheld := held_worker hworker
  cases hpc : worker.pc with
  | markLock | writeBackLock =>
      simp only [workerStep, hpc] at hstep
      exact accounted_lockObject haccounted hworker (by simp [hpc, holdsLock]) rfl hstep
  | setEvacuation =>
      simp only [workerStep, hpc, Option.some.injEq] at hstep
      subst hstep
      rw [held_setWorker_of_eq]
      · exact haccounted
      · exact hheld.trans (by simp [workerKey, hpc, holdsLock, State.setWord])
  | swapOut =>
      simp only [workerStep, hpc, Option.some.injEq] at hstep
      subst hstep
      rw [held_setWorker_of_eq]
      · exact haccounted
      · have hholds : holdsLock (if pointer.isEvacuation (state.word worker.ptr) then
            WorkerPc.gcStore else .unlock) = true := by
          split <;> rfl
        have hvisits : holdsLock .swapOut = true := rfl
        exact hheld.trans (by simp [workerKey, hpc, hholds, hvisits])
  | gcStore =>
      simp only [workerStep, hpc] at hstep
      split at hstep <;> cases hstep
      rw [held_setWorker_of_eq]
      · exact haccounted
      · exact hheld.trans (by simp [workerKey, hpc, holdsLock, State.setWord])
  | unlock =>
      simp only [workerStep, hpc, Option.some.injEq] at hstep
      subst hstep
      rw [held_setWorker]
      exact haccounted.release (by simp [hheld, workerKey, hpc, holdsLock])

theorem accounted_step {action : Action count numGcThreads}
    (haccounted : Accounted state.owner (held state))
    (hstep : step pointer state action = some after) :
    Accounted after.owner (held after) := by
  cases action with
  | call thread ptr =>
      have hidle : (state.calls thread).isNone := by
        simp only [step] at hstep
        split at hstep <;> simp_all
      rw [(step_call_eq_some hstep).2, held_setCall_of_eq]
      · exact haccounted
      · rw [held, Option.isNone_iff_eq_none.mp hidle]
        rfl
  | swapIn thread objAddr =>
      obtain ⟨call, hcall, next, pc, hswapIn, rfl⟩ := step_swapIn_eq_some hstep
      exact accounted_swapIn haccounted hcall hswapIn
  | finish thread =>
      simp only [step] at hstep
      split at hstep <;> cases hstep
      rename_i ptr hcall
      rw [held_setCall_of_eq]
      · exact haccounted
      · rw [held, hcall]
        rfl
  | pick id ptr =>
      simp only [step] at hstep
      split at hstep
      · rename_i hguard
        have hidle : held state (.worker id) = none := by
          rw [held, Option.isNone_iff_eq_none.mp hguard.1]
          rfl
        split at hstep <;> cases hstep <;> rw [held_setWorker_of_eq]
        · exact haccounted
        · exact hidle
        · exact haccounted
        · exact hidle
      · cases hstep
  | work id copyAddr =>
      obtain ⟨worker, hworker, hwork⟩ := step_work_eq_some hstep
      exact accounted_workerStep haccounted hworker hwork
  | _ =>
      simp only [step] at hstep
      split at hstep <;> cases hstep
      exact haccounted

variable (pointer) in
/-- `machine` from states at rest in which no object is locked. -/
def unlockedMachine : Library.Machine (State Meta count numGcThreads)
    (Action count numGcThreads) where
  initial state := AtRest pointer state ∧ ∀ key, state.owner key = none
  step := step pointer

theorem accounted_of_reachable {allowed : State Meta count numGcThreads →
      Action count numGcThreads → Prop}
    (hreachable : (unlockedMachine pointer).ReachableUnder allowed state) :
    Accounted state.owner (held state) := by
  refine hreachable.invariant (fun state => Accounted state.owner (held state)) ?_ ?_
  · rintro state ⟨hrest, hfree⟩ key party
    rw [hfree key]
    cases party with
    | thread thread => simp [held, hrest.calls thread]
    | worker id => simp [held, hrest.workers id]
  · exact fun haccounted _ hstep => accounted_step haccounted hstep

/-- In every run the table of object locks agrees with the positions of the
parties: no lock is leaked, taken twice or given back by another. -/
theorem locks_accounted (hreachable : (unlockedMachine pointer).Reachable state)
    (key : ℕ) (party : Party count numGcThreads) :
    state.owner key = some party ↔ held state party = some key :=
  accounted_of_reachable hreachable key party

theorem inv_of_reachable
    (hreachable : (unlockedMachine pointer).ReachableUnder (NoStaleId pointer) state) :
    Inv pointer state := by
  apply Protocol.inv_of_reachable
  refine hreachable.invariant ((machine pointer).ReachableUnder (NoStaleId pointer)) ?_ ?_
  · rintro state ⟨hrest, -⟩
    exact .initial hrest
  · exact fun hreached hallowed hstep => .step hreached hallowed hstep

end Accounting

theorem initial_swappedOut :
    (unlockedMachine (FarMemPtrMeta.pointerHpp 16)).initial swappedOut :=
  ⟨atRest_swappedOut, fun _ => rfl⟩

theorem exists_pagerAfterRun :
    ∃ state, (unlockedMachine (FarMemPtrMeta.pointerHpp 16)).run swappedOut
        pagerAfterRun = some state ∧
      state.calls 1 = some ⟨8, .allocate 7⟩ :=
  Option.map_eq_some_iff.mp (by decide)

theorem locks_accounted_pagerAfterRun :
    ∃ state, (unlockedMachine (FarMemPtrMeta.pointerHpp 16)).run swappedOut
        pagerAfterRun = some state ∧
      (state.owner 7 = some (.thread 1) ↔ held state (.thread 1) = some 7) := by
  obtain ⟨state, hrun, -⟩ := exists_pagerAfterRun
  exact ⟨state, hrun, locks_accounted (.of_run initial_swappedOut hrun) 7 (.thread 1)⟩

/-! ## What a worker waits for -/

/-- Pointers that a call or a worker is on. -/
def Engaged (state : State Meta count numGcThreads) (ptr : Slot) : Prop :=
  (∃ thread, ∃ call ∈ state.calls thread, call.ptr = ptr) ∨
    ∃ id, ∃ worker ∈ state.workers id, worker.ptr = ptr

/-- Different pointers in use denote objects with different ids. -/
def Unaliased (state : State Meta count numGcThreads) : Prop :=
  ∀ ptr other, Engaged state ptr → Engaged state other →
    (state.denotes ptr).objId = (state.denotes other).objId → ptr = other

/-- Positions past the allocation and the read, or about to find the object
present. -/
def Leaving : Pc Meta → Prop
  | .checkAgain _ | .setPresent _ _ _ | .decRefCnt _ _ | .unlock _ => True
  | _ => False

section Waits

variable {pointer : FarMemPtrMeta Meta}
variable {state : State Meta count numGcThreads}
variable {id : Fin numGcThreads} {worker : Worker}

/-- A worker that waits for its object is not there yet, so the object is local
and unlocked by the other workers. -/
theorem present_of_waits (hinv : Inv pointer state) (hworker : worker ∈ state.workers id)
    (hwaits : holdsLock worker.pc = false) :
    pointer.isPresent (state.word worker.ptr) = true := by
  have hok := hinv.workers id worker hworker
  cases hpc : worker.pc <;> rw [hpc] at hok hwaits
  case markLock => exact hok.2
  case writeBackLock => exact hok.2
  all_goals cases hwaits

theorem leaving_of_present {thread : Fin count} {call : Call Meta} {key : ℕ}
    (hinv : Inv pointer state) (hcall : call ∈ state.calls thread)
    (hheld : heldKey call.pc = some key)
    (hpresent : pointer.isPresent (state.word call.ptr) = true) :
    Leaving call.pc := by
  have hok := hinv.calls thread call hcall
  have hnot : ∀ {key : ℕ},
      ¬HoldsAbsent pointer state.shared state.denotes thread call.ptr key :=
    fun habsent => Bool.false_ne_true (habsent.2.symm.trans hpresent)
  generalize call.pc = pc at hok hheld
  cases pc with
  | readId | checkPresent word | lock key | returned => cases hheld
  | checkAgain key | setPresent key addr pending | decRefCnt key addr | unlock key => trivial
  | allocate key | readDsId key addr | readObject key addr dsId | checkShared key addr =>
      exact absurd hok hnot

theorem key_of_held {thread : Fin count} {call : Call Meta} {key : ℕ}
    (hinv : Inv pointer state) (hcall : call ∈ state.calls thread)
    (hheld : heldKey call.pc = some key) : key = (state.denotes call.ptr).objId := by
  apply (hinv.calls thread call hcall).lockKey_eq
  cases hpc : call.pc <;> rw [hpc] at hheld <;> first | exact hheld | cases hheld

/-- While its pointer is present, a call on the way out stays on it. -/
theorem Leaving.step {Thread : Type} {caller : Thread} {ptr : Slot} {objAddr : ℕ}
    {shared next : Shared Meta Thread} {pc nextPc : Pc Meta} {ring : Slot → List Slot}
    (hleaving : Leaving pc) (hpresent : pointer.isPresent (shared.heap.metas ptr) = true)
    (hstep : SwapIn.step pointer ring caller ptr objAddr shared pc = some (next, nextPc)) :
    Leaving nextPc ∨ nextPc = .returned := by
  cases pc with
  | checkAgain key =>
      rw [SwapIn.step, if_pos hpresent] at hstep
      cases hstep
      exact .inl trivial
  | setPresent key addr pending =>
      cases pending <;> cases hstep <;> exact .inl trivial
  | decRefCnt key addr =>
      cases hstep
      exact .inl trivial
  | unlock key =>
      cases hstep
      exact .inr rfl
  | readId | checkPresent word | lock key | allocate key | readDsId key addr
  | readObject key addr dsId | checkShared key addr | returned => cases hleaving

/-- In every run in which no pointer is written back behind a stale load, and
while the pointers in use have different ids, a GC worker waits for an object
lock only behind a call that has its space and its data, on the same pointer:
never behind one that waits for space, hence for the collector, or reads the
device. -/
theorem worker_waits_for_leaving
    (hreachable : (unlockedMachine pointer).ReachableUnder (NoStaleId pointer) state)
    (hunaliased : Unaliased state) (hworker : worker ∈ state.workers id)
    (hwaits : holdsLock worker.pc = false) {party : Party count numGcThreads}
    (howner : state.owner (state.denotes worker.ptr).objId = some party) :
    ∃ thread, party = .thread thread ∧ ∃ call ∈ state.calls thread,
      call.ptr = worker.ptr ∧ Leaving call.pc ∧ ∀ objAddr next pc,
        SwapIn.step pointer (fun slot => [slot]) (.thread thread) call.ptr objAddr
            state.shared call.pc = some (next, pc) → Leaving pc ∨ pc = .returned := by
  have hinv := inv_of_reachable hreachable
  have hheld := (accounted_of_reachable hreachable _ _).mp howner
  have hpresent := present_of_waits hinv hworker hwaits
  have hengaged : Engaged state worker.ptr := .inr ⟨id, worker, hworker, rfl⟩
  cases party with
  | worker other =>
      obtain ⟨rival, hrival, hkey⟩ := Option.bind_eq_some_iff.mp hheld
      rw [workerKey, Option.ite_none_right_eq_some, Option.some.injEq] at hkey
      have hptr := hunaliased _ _ (.inr ⟨other, rival, hrival, rfl⟩) hengaged hkey.2
      have hsame := hinv.single id worker hworker other rival hrival hptr
      subst hsame
      rw [Option.mem_def.mp hworker, Option.some.injEq] at hrival
      rw [← hrival, hwaits] at hkey
      cases hkey.1
  | thread thread =>
      obtain ⟨call, hcall, hkey⟩ := Option.bind_eq_some_iff.mp hheld
      have hptr := hunaliased _ _ (.inl ⟨thread, call, hcall, rfl⟩) hengaged
        (key_of_held hinv hcall hkey).symm
      rw [← hptr] at hpresent
      have hleaving := leaving_of_present hinv hcall hkey hpresent
      exact ⟨thread, rfl, call, hcall, hptr, hleaving, fun objAddr next pc hstep =>
        hleaving.step hpresent hstep⟩

end Waits

/-- The collector reaches the object while the mutator still has its lock. -/
def workerWaitsRun : List (Action 2 1) :=
  [Action.enterScope 0, Action.call 0 8] ++ List.replicate 9 (Action.swapIn 0 4096) ++
    [.startMarking, .pick 0 8]

theorem exists_workerWaitsRun :
    ∃ state, (unlockedMachine (FarMemPtrMeta.pointerHpp 16)).run swappedOut
        workerWaitsRun = some state ∧
      ((state.owner 7, (state.denotes 8).objId),
          [(state.calls 0).map Call.ptr, (state.calls 1).map Call.ptr],
          (state.workers 0).map fun worker => (worker.ptr, worker.pc)) =
        ((some (.thread 0), 7), [some 8, none], some (8, .markLock)) :=
  Option.map_eq_some_iff.mp (by decide)

theorem worker_waits_for_leaving_workerWaitsRun :
    ∃ state worker, (unlockedMachine (FarMemPtrMeta.pointerHpp 16)).run swappedOut
        workerWaitsRun = some state ∧ worker ∈ state.workers 0 ∧
      ∃ thread, (.thread 0 : Party 2 1) = .thread thread ∧
        ∃ call ∈ state.calls thread, call.ptr = worker.ptr ∧ Leaving call.pc := by
  obtain ⟨state, hrun, hfinal⟩ := exists_workerWaitsRun
  simp only [Prod.mk.injEq, List.cons.injEq] at hfinal
  obtain ⟨⟨howner, hdenotes⟩, ⟨hfirst, hsecond, -⟩, hvisit⟩ := hfinal
  obtain ⟨worker, hworker, hpair⟩ := Option.map_eq_some_iff.mp hvisit
  obtain ⟨hptr, hpc⟩ := Prod.mk.inj hpair
  have hcalls : ∀ thread, ∀ call ∈ state.calls thread, call.ptr = 8 := by
    intro thread call hcall
    rcases Fin.exists_fin_two.mp ⟨thread, rfl⟩ with rfl | rfl
    · rw [Option.mem_def.mp hcall, Option.map_some, Option.some.injEq] at hfirst
      exact hfirst
    · rw [Option.mem_def.mp hcall] at hsecond
      cases hsecond
  have hengaged : ∀ ptr, Engaged state ptr → ptr = 8 := by
    rintro ptr (⟨thread, call, hcall, rfl⟩ | ⟨id, other, hother, rfl⟩)
    · exact hcalls thread call hcall
    · obtain rfl : id = 0 := Subsingleton.elim _ _
      rw [Option.mem_def.mp hother, Option.some.injEq] at hworker
      rw [hworker, hptr]
  have hreachable : (unlockedMachine (FarMemPtrMeta.pointerHpp 16)).ReachableUnder
      (NoStaleId (FarMemPtrMeta.pointerHpp 16)) state :=
    .of_run noStaleId_of_quietWriteBack (.initial initial_swappedOut) hrun (by decide)
  obtain ⟨thread, hparty, call, hcall, hsame, hleaving, -⟩ :=
    worker_waits_for_leaving hreachable
      (fun ptr other hptr hother _ => (hengaged ptr hptr).trans (hengaged other hother).symm)
      hworker (by rw [hpc]; rfl) (by rw [hptr, hdenotes]; exact howner)
  exact ⟨state, worker, hrun, hworker, thread, hparty, call, hcall, hsame, hleaving⟩

/-! ## Calls and visits end -/

/-- Steps that a call still takes, the removal of the finished call included. -/
def rank : Pc Meta → ℕ
  | .readId => 13
  | .checkPresent _ => 12
  | .lock _ => 11
  | .checkAgain _ => 10
  | .allocate _ => 9
  | .readDsId _ _ => 8
  | .readObject _ _ _ => 7
  | .checkShared _ _ => 6
  | .setPresent _ _ pending => 4 + pending.length
  | .decRefCnt _ _ => 3
  | .unlock _ => 2
  | .returned => 1

def workerRank : WorkerPc → ℕ
  | .writeBackLock => 4
  | .markLock | .swapOut => 3
  | .setEvacuation | .gcStore => 2
  | .unlock => 1

def callRank (call : Option (Call Meta)) : ℕ :=
  call.elim 0 fun call => rank call.pc

def visitRank (worker : Option Worker) : ℕ :=
  worker.elim 0 fun worker => workerRank worker.pc

/-- Steps that all calls and visits still take. -/
def remaining (state : State Meta count numGcThreads) : ℕ :=
  ∑ thread, callRank (state.calls thread) + ∑ id, visitRank (state.workers id)

/-- The step of a call or of a visit. -/
def drains (_ : State Meta count numGcThreads) : Action count numGcThreads → ℕ
  | .swapIn _ _ | .finish _ | .work _ _ => 1
  | _ => 0

/-- A new call and a new visit bring their own steps. -/
def brings (_ : State Meta count numGcThreads) : Action count numGcThreads → ℕ
  | .call _ _ => 13
  | .pick _ _ => 4
  | _ => 0

section Progress

variable {pointer : FarMemPtrMeta Meta}
variable {state after : State Meta count numGcThreads}
variable {thread : Fin count} {id : Fin numGcThreads}

theorem remaining_setCall (state : State Meta count numGcThreads) (thread : Fin count)
    (call : Option (Call Meta)) :
    remaining (state.setCall thread call) + callRank (state.calls thread) =
      remaining state + callRank call := by
  have hupdate := Library.Machine.sum_update callRank state.calls thread call
  simp only [remaining, State.setCall]
  omega

theorem remaining_setWorker (state : State Meta count numGcThreads)
    (id : Fin numGcThreads) (worker : Option Worker) :
    remaining (state.setWorker id worker) + visitRank (state.workers id) =
      remaining state + visitRank worker := by
  have hupdate := Library.Machine.sum_update visitRank state.workers id worker
  simp only [remaining, State.setWorker]
  omega

/-- Every step of `swap_in` on a unique pointer is a step closer to the end. -/
theorem rank_lt {Thread : Type} {caller : Thread} {ptr : Slot} {objAddr : ℕ}
    {shared next : Shared Meta Thread} {pc nextPc : Pc Meta}
    (hstep : SwapIn.step pointer (fun slot => [slot]) caller ptr objAddr shared pc =
      some (next, nextPc)) :
    rank nextPc < rank pc := by
  cases pc with
  | checkPresent word | lock key | checkAgain key | allocate key =>
      rw [SwapIn.step] at hstep
      split at hstep <;> cases hstep <;> simp [rank]
  | checkShared key addr =>
      cases hstep
      simp [rank, SwapIn.aliasesOf]
  | setPresent key addr pending =>
      cases pending <;> cases hstep <;> simp [rank]
  | returned => cases hstep
  | _ =>
      cases hstep
      simp [rank]

theorem remaining_workerStep {worker : Worker} {copyAddr : Option ℕ}
    (hworker : worker ∈ state.workers id)
    (hstep : workerStep pointer state id copyAddr worker = some after) :
    remaining after < remaining state := by
  have hvisit : visitRank (state.workers id) = workerRank worker.pc := by
    rw [Option.mem_def.mp hworker]
    rfl
  -- each step sets the worker over a state with the same calls and visits
  have hset : ∀ {middle : State Meta count numGcThreads} {next : Option Worker},
      middle.calls = state.calls → middle.workers = state.workers →
        visitRank next < workerRank worker.pc →
          remaining (middle.setWorker id next) < remaining state := by
    intro middle next hcalls hworkers hrank
    have hupdate := remaining_setWorker middle id next
    have hsame : remaining middle = remaining state := by
      rw [remaining, remaining, hcalls, hworkers]
    rw [hworkers, hvisit, hsame] at hupdate
    omega
  cases hpc : worker.pc with
  | markLock | writeBackLock =>
      simp only [workerStep, lockObject, hpc] at hstep
      split at hstep <;> cases hstep
      exact hset rfl rfl (by simp [hpc, visitRank, workerRank])
  | setEvacuation | unlock =>
      simp only [workerStep, hpc, Option.some.injEq] at hstep
      subst hstep
      exact hset rfl rfl (by simp [hpc, visitRank, workerRank])
  | swapOut =>
      simp only [workerStep, hpc, Option.some.injEq] at hstep
      subst hstep
      refine hset rfl rfl ?_
      rw [hpc]
      split <;> simp [visitRank, workerRank]
  | gcStore =>
      simp only [workerStep, hpc] at hstep
      split at hstep <;> cases hstep
      exact hset rfl rfl (by simp [hpc, visitRank, workerRank])

theorem pay {action : Action count numGcThreads}
    (hstep : step pointer state action = some after) :
    remaining after + drains state action ≤ remaining state + brings state action := by
  cases action with
  | call thread ptr =>
      have hupdate := remaining_setCall state thread (some ⟨ptr, .readId⟩)
      have hrank : callRank (some (⟨ptr, .readId⟩ : Call Meta)) = 13 := rfl
      rw [(step_call_eq_some hstep).2]
      dsimp only [drains, brings]
      omega
  | swapIn thread objAddr =>
      obtain ⟨call, hcall, next, pc, hswapIn, rfl⟩ := step_swapIn_eq_some hstep
      have hupdate := remaining_setCall { state with shared := next } thread
        (some ⟨call.ptr, pc⟩)
      have hbefore : callRank (state.calls thread) = rank call.pc := by
        rw [Option.mem_def.mp hcall]
        rfl
      have hafter : callRank (some (⟨call.ptr, pc⟩ : Call Meta)) = rank pc := rfl
      have hsame : remaining { state with shared := next } = remaining state := rfl
      have hlower := rank_lt hswapIn
      dsimp only [drains, brings] at hupdate ⊢
      omega
  | finish thread =>
      simp only [step] at hstep
      split at hstep <;> cases hstep
      rename_i ptr hcall
      have hupdate := remaining_setCall state thread none
      have hbefore : callRank (state.calls thread) = 1 := by
        rw [hcall]
        rfl
      have hafter : callRank (none : Option (Call Meta)) = 0 := rfl
      dsimp only [drains, brings]
      omega
  | pick id ptr =>
      simp only [step] at hstep
      split at hstep
      · split at hstep <;> cases hstep
        · have hupdate := remaining_setWorker state id
            (some ⟨ptr, .markLock⟩)
          have hrank : visitRank (some ⟨ptr, .markLock⟩) = 3 := rfl
          dsimp only [drains, brings]
          omega
        · have hupdate := remaining_setWorker state id
            (some ⟨ptr, .writeBackLock⟩)
          have hrank : visitRank (some ⟨ptr, .writeBackLock⟩) = 4 := rfl
          dsimp only [drains, brings]
          omega
      · cases hstep
  | work id copyAddr =>
      obtain ⟨worker, hworker, hwork⟩ := step_work_eq_some hstep
      have hlower := remaining_workerStep hworker hwork
      dsimp only [drains, brings]
      omega
  | _ =>
      simp only [step] at hstep
      split at hstep <;> cases hstep
      exact le_rfl

theorem swapIn_enabled {Thread : Type} {caller : Thread} {ptr : Slot}
    {shared : Shared Meta Thread} {pc : Pc Meta} {ring : Slot → List Slot}
    (hfree : ∀ key, pc = .lock key → shared.lockOwner key = none)
    (hreturned : pc ≠ .returned) :
    (SwapIn.step pointer ring caller ptr 0 shared pc).isSome := by
  cases pc with
  | checkPresent word | checkAgain key =>
      rw [SwapIn.step]
      split <;> rfl
  | lock key =>
      rw [SwapIn.step, if_pos (hfree key rfl)]
      rfl
  | allocate key =>
      rw [SwapIn.step, if_pos pointer.addrBound_pos]
      rfl
  | setPresent key addr pending => cases pending <;> rfl
  | returned => exact absurd rfl hreturned
  | _ => rfl

theorem call_enabled {call : Call Meta} (hcall : call ∈ state.calls thread)
    (hfree : ∀ key, call.pc = .lock key → state.owner key = none) :
    ∃ action next, drains state action = 1 ∧ step pointer state action = some next := by
  by_cases hreturned : call.pc = .returned
  · refine ⟨.finish thread, state.setCall thread none, rfl, ?_⟩
    obtain ⟨ptr, pc⟩ := call
    cases hreturned
    simp only [step, Option.mem_def.mp hcall]
  · have hsome : (SwapIn.step pointer (fun slot => [slot]) (Party.thread thread) call.ptr 0
        state.shared call.pc).isSome := swapIn_enabled hfree hreturned
    obtain ⟨⟨next, pc⟩, hstep⟩ := Option.isSome_iff_exists.mp hsome
    refine ⟨.swapIn thread 0,
      { state with shared := next }.setCall thread (some ⟨call.ptr, pc⟩), rfl, ?_⟩
    simp only [step, Option.mem_def.mp hcall, hstep]

theorem worker_enabled {worker : Worker} (hworker : worker ∈ state.workers id)
    (hfree : holdsLock worker.pc = false →
      state.owner (state.denotes worker.ptr).objId = none) :
    ∃ action next, drains state action = 1 ∧ step pointer state action = some next := by
  have hwork : (workerStep pointer state id none worker).isSome := by
    cases hpc : worker.pc with
    | markLock | writeBackLock =>
        rw [hpc] at hfree
        simp only [workerStep, hpc, lockObject, if_pos (hfree rfl)]
        rfl
    | gcStore => simp [workerStep, hpc]
    | _ => simp [workerStep, hpc]
  obtain ⟨next, hnext⟩ := Option.isSome_iff_exists.mp hwork
  refine ⟨.work id none, next, rfl, ?_⟩
  simp only [step, Option.mem_def.mp hworker, hnext]

/-- The owner of a lock never waits for another. -/
theorem owner_enabled (haccounted : Accounted state.owner (held state)) {key : ℕ}
    {party : Party count numGcThreads} (howner : state.owner key = some party) :
    ∃ action next, drains state action = 1 ∧ step pointer state action = some next := by
  have hheld := (haccounted key party).mp howner
  cases party with
  | thread thread =>
      obtain ⟨call, hcall, hkey⟩ := Option.bind_eq_some_iff.mp hheld
      refine call_enabled hcall fun other hpc => ?_
      rw [hpc] at hkey
      cases hkey
  | worker id =>
      obtain ⟨worker, hworker, hkey⟩ := Option.bind_eq_some_iff.mp hheld
      rw [workerKey, Option.ite_none_right_eq_some] at hkey
      refine worker_enabled hworker fun hwaits => ?_
      rw [hwaits] at hkey
      cases hkey.1

/-- While a call or a visit is in progress, one of them can go on. -/
theorem progress (haccounted : Accounted state.owner (held state))
    (hbusy : (∃ thread, (state.calls thread).isSome) ∨ ∃ id, (state.workers id).isSome) :
    ∃ action next, drains state action = 1 ∧ step pointer state action = some next := by
  rcases hbusy with ⟨thread, hbusy⟩ | ⟨id, hbusy⟩
  · obtain ⟨call, hcall⟩ := Option.isSome_iff_exists.mp hbusy
    by_cases hwaits : ∃ key party, call.pc = .lock key ∧ state.owner key = some party
    · obtain ⟨key, party, -, howner⟩ := hwaits
      exact owner_enabled haccounted howner
    · refine call_enabled hcall fun key hpc => ?_
      by_contra hne
      obtain ⟨party, howner⟩ := Option.ne_none_iff_exists'.mp hne
      exact hwaits ⟨key, party, hpc, howner⟩
  · obtain ⟨worker, hworker⟩ := Option.isSome_iff_exists.mp hbusy
    cases howner : state.owner (state.denotes worker.ptr).objId with
    | none => exact worker_enabled hworker fun _ => howner
    | some party => exact owner_enabled haccounted howner

theorem remaining_le_of_rest (hrest : AtRest pointer state) : remaining state = 0 := by
  simp [remaining, hrest.calls, hrest.workers, callRank, visitRank]

end Progress

/-- Calls and visits end: in every run they take at most thirteen steps for each
call and four for each visit, and while one is in progress some call or visit
can go on, so no wait for an object lock is circular. -/
theorem calls_and_visits_end {pointer : FarMemPtrMeta Meta}
    {state final : State Meta count numGcThreads} {actions : List (Action count numGcThreads)}
    (hinitial : (unlockedMachine pointer).initial state)
    (hrun : (unlockedMachine pointer).run state actions = some final) :
    (unlockedMachine pointer).runTotal drains state actions ≤
        (unlockedMachine pointer).runTotal brings state actions ∧
      ((∃ thread, (final.calls thread).isSome) ∨ (∃ id, (final.workers id).isSome) →
        ∃ action next, drains final action = 1 ∧ step pointer final action = some next) := by
  constructor
  · have htotal := Library.Machine.runTotal_le (fun _ => True) remaining drains brings
      (fun _ _ => trivial) (fun _ hstep => pay hstep) trivial hrun
    have hnone := remaining_le_of_rest hinitial.1
    omega
  · exact progress (accounted_of_reachable (Library.Machine.Reachable.of_run hinitial hrun))

theorem calls_and_visits_end_pagerAfterRun :
    ∃ state, (unlockedMachine (FarMemPtrMeta.pointerHpp 16)).run swappedOut
        pagerAfterRun = some state ∧
      (unlockedMachine (FarMemPtrMeta.pointerHpp 16)).runTotal drains swappedOut
          pagerAfterRun ≤
        (unlockedMachine (FarMemPtrMeta.pointerHpp 16)).runTotal brings swappedOut
          pagerAfterRun ∧
      ∃ action next, drains state action = 1 ∧
        step (FarMemPtrMeta.pointerHpp 16) state action = some next := by
  obtain ⟨state, hrun, hcall⟩ := exists_pagerAfterRun
  have hends := calls_and_visits_end initial_swappedOut hrun
  exact ⟨state, hrun, hends.1, hends.2 (.inl ⟨1, by rw [hcall]; rfl⟩)⟩

/-! ## The pager in a circle -/

/-- The pager is outside any scope and about to allocate under the object lock,
a mutator that entered its scope before the round waits for that lock, and the
round waits for the mutator to leave its scope. -/
structure CircularWait (state : State Meta count numGcThreads)
    (pager mutator : Fin count) (ptr : Slot) (key : ℕ) : Prop where
  space : state.calls pager = some ⟨ptr, .allocate key⟩
  outside : state.scopes pager = none
  lock : state.calls mutator = some ⟨ptr, .lock key⟩
  scope : state.scopes mutator = some (!state.expectedStatus)
  phase : state.phase = .waiting

/-- Steps other than the pager's allocation, which waits for the end of a round
when no region is free. -/
def noSpaceFor (pager : Fin count) (_ : State Meta count numGcThreads) :
    Action count numGcThreads → Bool
  | .swapIn thread _ => thread ≠ pager
  | _ => true

/-- The pager locks an absent object; a mutator calls `swap_in` on the same
pointer; a round begins. -/
def circularRun (pager mutator : Fin count) (ptr : Slot) :
    List (Action count numGcThreads) :=
  [.enterScope mutator, .call pager ptr, .swapIn pager 0, .swapIn pager 0, .swapIn pager 0,
    .swapIn pager 0, .call mutator ptr, .swapIn mutator 0, .swapIn mutator 0,
    .startMarking, .flipStatus]

section Circle

variable {pointer : FarMemPtrMeta Meta}
variable {state after : State Meta count numGcThreads}
variable {pager mutator thread : Fin count} {ptr : Slot} {key : ℕ}
variable {action : Action count numGcThreads}

theorem workerStep_keeps_round {id : Fin numGcThreads} {worker : Worker}
    {copyAddr : Option ℕ}
    (hstep : workerStep pointer state id copyAddr worker = some after) :
    after.scopes = state.scopes ∧ after.expectedStatus = state.expectedStatus ∧
      after.phase = state.phase := by
  cases hpc : worker.pc <;> simp only [workerStep, lockObject, hpc] at hstep
  all_goals
    try split at hstep
  all_goals
    cases hstep
  all_goals
    exact ⟨rfl, rfl, rfl⟩

theorem CircularWait.setCall (hwait : CircularWait state pager mutator ptr key)
    (hpager : pager ≠ thread) (hmutator : mutator ≠ thread) (call : Option (Call Meta)) :
    CircularWait (state.setCall thread call) pager mutator ptr key where
  space := (State.calls_setCall_of_ne hpager).trans hwait.space
  outside := hwait.outside
  lock := (State.calls_setCall_of_ne hmutator).trans hwait.lock
  scope := hwait.scope
  phase := hwait.phase

theorem CircularWait.setScope (hwait : CircularWait state pager mutator ptr key)
    (hidle : (state.calls thread).isNone) (status : Option Bool) :
    CircularWait (state.setScope thread status) pager mutator ptr key where
  space := hwait.space
  outside := by
    have hpager : pager ≠ thread := by
      rintro rfl
      simp [hwait.space] at hidle
    exact (State.scopes_setScope_of_ne hpager).trans hwait.outside
  lock := hwait.lock
  scope := by
    have hmutator : mutator ≠ thread := by
      rintro rfl
      simp [hwait.lock] at hidle
    exact (State.scopes_setScope_of_ne hmutator).trans hwait.scope
  phase := hwait.phase

/-- No step but the pager's own breaks the circle. -/
theorem CircularWait.step (hwait : CircularWait state pager mutator ptr key)
    (haccounted : Accounted state.owner (held state))
    (hallowed : noSpaceFor pager state action = true)
    (hstep : step pointer state action = some after) :
    CircularWait after pager mutator ptr key := by
  cases action with
  | enterScope runner =>
      simp only [Protocol.step] at hstep
      split at hstep <;> cases hstep
      rename_i hguard
      exact hwait.setScope hguard.2 _
  | exitScope runner =>
      simp only [Protocol.step] at hstep
      split at hstep <;> cases hstep
      rename_i hguard
      exact hwait.setScope hguard _
  | call runner target =>
      have hpager : pager ≠ runner := by
        rintro rfl
        simp [Protocol.step, hwait.space] at hstep
      have hmutator : mutator ≠ runner := by
        rintro rfl
        simp [Protocol.step, hwait.lock] at hstep
      rw [(step_call_eq_some hstep).2]
      exact hwait.setCall hpager hmutator _
  | swapIn runner objAddr =>
      have hpager : pager ≠ runner := by
        rintro rfl
        simp [noSpaceFor] at hallowed
      -- the mutator cannot move: the pager owns the lock
      have hmutator : mutator ≠ runner := by
        rintro rfl
        have howner : state.shared.lockOwner key = some (.thread pager) :=
          (haccounted _ _).mpr (held_thread hwait.space)
        simp [Protocol.step, hwait.lock, SwapIn.step, howner] at hstep
      obtain ⟨call, -, next, pc, -, rfl⟩ := step_swapIn_eq_some hstep
      have hshared : CircularWait { state with shared := next } pager mutator ptr key :=
        ⟨hwait.space, hwait.outside, hwait.lock, hwait.scope, hwait.phase⟩
      exact hshared.setCall hpager hmutator _
  | finish runner =>
      have hpager : pager ≠ runner := by
        rintro rfl
        simp [Protocol.step, hwait.space] at hstep
      have hmutator : mutator ≠ runner := by
        rintro rfl
        simp [Protocol.step, hwait.lock] at hstep
      rw [step_finish_eq_some hstep]
      exact hwait.setCall hpager hmutator _
  | migrate runner target objAddr =>
      simp only [Protocol.step] at hstep
      split at hstep <;> cases hstep
      exact ⟨hwait.space, hwait.outside, hwait.lock, hwait.scope, hwait.phase⟩
  | startWriting =>
      simp only [Protocol.step] at hstep
      split at hstep
      · rename_i hguard
        exact absurd hwait.scope (hguard.2 mutator)
      · cases hstep
  | work id copyAddr =>
      obtain ⟨worker, -, hwork⟩ := step_work_eq_some hstep
      have hcalls := (workerStep_keeps hwork).1
      obtain ⟨hscopes, hexpected, hphase⟩ := workerStep_keeps_round hwork
      exact ⟨hcalls ▸ hwait.space, hscopes ▸ hwait.outside, hcalls ▸ hwait.lock,
        hscopes ▸ hexpected ▸ hwait.scope, hphase ▸ hwait.phase⟩
  | startMarking | flipStatus | endRound | pick =>
      simp [Protocol.step, hwait.phase] at hstep

/-- The state after `circularRun`. -/
def circle (state : State Meta count numGcThreads) (pager mutator : Fin count)
    (ptr : Slot) (key : ℕ) : State Meta count numGcThreads :=
  { ((((state.setOwner key (some (.thread pager))).setCall pager
      (some ⟨ptr, .allocate key⟩)).setCall mutator (some ⟨ptr, .lock key⟩)).setScope mutator
        (some state.expectedStatus)) with
    expectedStatus := !state.expectedStatus
    phase := .waiting }

theorem circularWait_circle (hrest : AtRest pointer state) (hne : pager ≠ mutator) :
    CircularWait (circle state pager mutator ptr key) pager mutator ptr key where
  space := by simp [circle, State.setScope, hne]
  outside := by simp [circle, State.setScope, State.setCall, State.setOwner, hne, hrest.scopes]
  lock := by simp [circle, State.setScope]
  scope := by simp [circle]
  phase := rfl

theorem run_circularRun (hrest : AtRest pointer state)
    (hfree : ∀ key, state.owner key = none) (hne : pager ≠ mutator)
    (habsent : pointer.isPresent (state.word ptr) = false) :
    (unlockedMachine pointer).run state (circularRun pager mutator ptr) =
      some (circle state pager mutator ptr (pointer.getObjectId (state.word ptr))) := by
  have hlock : state.shared.lockOwner (pointer.getObjectId (state.word ptr)) = none :=
    hfree _
  simp only [State.word] at habsent hlock ⊢
  simp [circularRun, circle, Library.Machine.run, unlockedMachine, Protocol.step,
    hrest.calls, hrest.scopes, hrest.phase, hrest.workers, State.setScope, State.setCall,
    State.setOwner, State.word, habsent, hne.symm, SwapIn.step, hlock]

end Circle

/-- The pager and the collector can wait for each other through a mutator: from
every state at rest with an absent object, a run leads to a circular wait that no
step but the pager's allocation ends, so the round never ends and frees no space
for it. -/
theorem pager_deadlocks {pointer : FarMemPtrMeta Meta}
    {state : State Meta count numGcThreads} {pager mutator : Fin count} {ptr : Slot}
    (hrest : AtRest pointer state) (hfree : ∀ key, state.owner key = none)
    (hne : pager ≠ mutator) (habsent : pointer.isPresent (state.word ptr) = false) :
    ∃ blocked, (unlockedMachine pointer).run state (circularRun pager mutator ptr) =
        some blocked ∧
      ∀ actions final, ((unlockedMachine pointer).restrict (noSpaceFor pager)).run blocked
          actions = some final →
        CircularWait final pager mutator ptr (pointer.getObjectId (state.word ptr)) := by
  have hrun := run_circularRun hrest hfree hne habsent
  refine ⟨_, hrun, fun actions final hmore => ?_⟩
  have haccounted := accounted_of_reachable
    (Library.Machine.Reachable.of_run ⟨hrest, hfree⟩ hrun)
  have hfinal := Library.Machine.run_induction
    (fun state => CircularWait state pager mutator ptr _ ∧ Accounted state.owner (held state))
    (fun hinv hstep => by
      rw [Library.Machine.restrict_step_eq_some] at hstep
      exact ⟨hinv.1.step hinv.2 hstep.1 hstep.2, accounted_step hinv.2 hstep.2⟩)
    ⟨circularWait_circle hrest hne, haccounted⟩ hmore
  exact hfinal.1

theorem pager_deadlocks_swappedOut :
    ∃ blocked, (unlockedMachine (FarMemPtrMeta.pointerHpp 16)).run swappedOut
        (circularRun 1 0 8) = some blocked ∧
      ∀ actions final, ((unlockedMachine (FarMemPtrMeta.pointerHpp 16)).restrict
          (noSpaceFor 1)).run blocked actions = some final →
        CircularWait final 1 0 8
          ((FarMemPtrMeta.pointerHpp 16).getObjectId (swappedOut.word 8)) :=
  pager_deadlocks atRest_swappedOut (fun _ => rfl) (by decide) (by decide)

end DynamicSwap.ObjectLocks
