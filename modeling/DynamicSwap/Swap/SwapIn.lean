import DynamicSwap.Core.Heap

/-!
# The steps of `swap_in`

`FarMemManager::swap_in` as a program of atomic steps: single loads of the
pointer's metadata, lock and unlock of an object id, single metadata stores.
The pointer is read without the lock, so other threads run between any two
steps.
-/

namespace DynamicSwap

/-- Memory shared by the threads that call `swap_in`.  The two logs are ghost
state: they record which thread allocated and which read the device. -/
structure Shared (Meta Thread : Type) where
  heap : Heap Meta
  lockOwner : ℕ → Option Thread
  allocations : List (Thread × ℕ) := []
  reads : List (Thread × ℕ) := []

namespace SwapIn

/-- Position of a call, with the locals that are live there.  `checkPresent`
keeps the word that `obj_id` was loaded from. -/
inductive Pc (Meta : Type)
  | readId
  | checkPresent (word : Meta)
  | lock (objId : ℕ)
  | checkAgain (objId : ℕ)
  | allocate (objId : ℕ)
  | readDsId (objId objAddr : ℕ)
  | readObject (objId objAddr dsId : ℕ)
  | checkShared (objId objAddr : ℕ)
  | setPresent (objId objAddr : ℕ) (pending : List Slot)
  | decRefCnt (objId objAddr : ℕ)
  | unlock (objId : ℕ)
  | returned
  deriving DecidableEq

variable {Meta Thread : Type}
variable (pointer : FarMemPtrMeta Meta) (ring : Slot → List Slot)

/-- Aliases that a setter reaches from `ptr`: the pointer itself when it is
unique, the ring that `traverse` walks when it is shared. -/
def aliasesOf (heap : Heap Meta) (ptr : Slot) : List Slot :=
  if pointer.isShared (heap.metas ptr) then ring ptr else [ptr]

/-- One step of the call of `thread` on `ptr`.  `objAddr` is the address that
`allocate_local_object` hands out, read at that step only. -/
def step (thread : Thread) (ptr : Slot) (objAddr : ℕ)
    (shared : Shared Meta Thread) :
    Pc Meta → Option (Shared Meta Thread × Pc Meta)
  | .readId => some (shared, .checkPresent (shared.heap.metas ptr))
  | .checkPresent word =>
      if pointer.isPresent (shared.heap.metas ptr) then some (shared, .returned)
      else some (shared, .lock (pointer.getObjectId word))
  | .lock objId =>
      if shared.lockOwner objId = none then
        some ({ shared with
            lockOwner := Function.update shared.lockOwner objId (some thread) },
          .checkAgain objId)
      else none
  | .checkAgain objId =>
      if pointer.isPresent (shared.heap.metas ptr) then
        some (shared, .unlock objId)
      else some (shared, .allocate objId)
  | .allocate objId =>
      if objAddr < pointer.addrBound then
        some ({ shared with
            heap := shared.heap.atomicIncRefCnt objAddr 1
            allocations := shared.allocations ++ [(thread, objAddr)] },
          .readDsId objId objAddr)
      else none
  | .readDsId objId objAddr =>
      some (shared,
        .readObject objId objAddr (pointer.getDsId (shared.heap.metas ptr)))
  | .readObject objId objAddr dsId =>
      some ({ shared with
          heap := shared.heap.putObject objAddr (some
            { ptrAddr := ptr
              dsId := dsId
              objId := objId
              objIdLen := 8
              data := shared.heap.device dsId objId })
          reads := shared.reads ++ [(thread, objId)] },
        .checkShared objId objAddr)
  | .checkShared objId objAddr =>
      some (shared,
        .setPresent objId objAddr (aliasesOf pointer ring shared.heap ptr))
  | .setPresent objId objAddr [] => some (shared, .decRefCnt objId objAddr)
  | .setPresent objId objAddr (slot :: pending) =>
      some ({ shared with
          heap := shared.heap.setMeta slot
            (pointer.setPresent (shared.heap.metas slot) objAddr) },
        .setPresent objId objAddr pending)
  | .decRefCnt objId objAddr =>
      some ({ shared with heap := shared.heap.atomicIncRefCnt objAddr (-1) },
        .unlock objId)
  | .unlock objId =>
      some ({ shared with
          lockOwner := Function.update shared.lockOwner objId none },
        .returned)
  | .returned => none

variable {pointer ring}

/-- The only metadata that a step stores is the next pending alias. -/
theorem metas_step {thread : Thread} {ptr slot : Slot} {objAddr : ℕ}
    {shared next : Shared Meta Thread} {pc nextPc : Pc Meta}
    (hstep : step pointer ring thread ptr objAddr shared pc = some (next, nextPc)) :
    next.heap.metas slot = shared.heap.metas slot ∨
      ∃ objId addr pending, pc = .setPresent objId addr (slot :: pending) ∧
        next.heap.metas slot = pointer.setPresent (shared.heap.metas slot) addr := by
  cases pc with
  | checkPresent word | lock objId | checkAgain objId | allocate objId =>
      rw [step] at hstep
      split at hstep <;> cases hstep <;> exact .inl rfl
  | setPresent objId addr pending =>
      cases pending with
      | nil =>
          cases hstep
          exact .inl rfl
      | cons head pending =>
          cases hstep
          by_cases heq : slot = head
          · subst slot
            exact .inr ⟨objId, addr, pending, rfl, Heap.metas_setMeta_self ..⟩
          · exact .inl (Heap.metas_setMeta_of_ne _ _ heq)
  | returned => cases hstep
  | _ =>
      cases hstep
      exact .inl rfl

end SwapIn

end DynamicSwap
