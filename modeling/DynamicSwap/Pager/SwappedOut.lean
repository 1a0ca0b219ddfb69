import DynamicSwap.Pager.Threads

/-!
# What the pager swaps in

A null pointer has the not-present bit set, and neither the pager's test nor the
two tests of `swap_in` ask for `is_null`.  What the pager loads is therefore a
swapped-out object in the runs where its own test never meets a null pointer,
where no pointer changes its object under a `swap_in` or a GC worker, and where
the id that `swap_in` locks by is not stale.
-/

namespace DynamicSwap.Pager

open SwapIn (Pc)

variable {Meta : Type} {count numGcThreads : ℕ}
variable (pointer : FarMemPtrMeta Meta) (pagerThread : Fin count)

/-- The pointer denotes an object and the object is remote. -/
def SwappedOut (far : Protocol.State Meta count numGcThreads) (ptr : Slot) : Prop :=
  pointer.isPresent (far.word ptr) = false ∧ pointer.isNull (far.word ptr) = false

/-- Positions of `swap_in` from the local allocation to the remote read. -/
def Loading : Pc Meta → Prop
  | .allocate _ | .readDsId _ _ | .readObject _ _ _ => True
  | _ => False

/-- The pager allocates and reads for swapped-out objects only, and its steps
leave null pointers null. -/
structure OnlySwappedOut (state : State Meta count numGcThreads) : Prop where
  loads : ∀ call ∈ state.far.calls pagerThread, Loading call.pc →
    SwappedOut pointer state.far call.ptr
  nulls : ∀ objAddr next,
    pagerStep pointer pagerThread state objAddr = some next →
      ∀ ptr, pointer.isNull (state.far.word ptr) = true →
        next.far.word ptr = state.far.word ptr

/-- The pager's presence test does not meet a null pointer, no pointer gets
another object while a `swap_in` or a GC worker is on it, and no write-back
makes an id stale. -/
structure Undisturbed (state : State Meta count numGcThreads)
    (action : Action count numGcThreads Meta) : Prop where
  notNull : ∀ objAddr ref rest, action = .pager objAddr →
    state.pager = .checkPresent ref rest →
      pointer.isNull (state.far.word ref.ptr) = false
  assigned : ∀ ptr word object, action = .assign ptr word object →
    (∀ thread, ∀ call ∈ state.far.calls thread, call.ptr ≠ ptr) ∧
      ∀ id, ∀ worker ∈ state.far.workers id, worker.ptr ≠ ptr
  fresh : ∀ far, action = .far far → Protocol.NoStaleId pointer state.far far

/-- The protocol's invariant, and the pager's `swap_in` is not on a null
pointer. -/
structure FarInv (far : Protocol.State Meta count numGcThreads) : Prop where
  protocol : Protocol.Inv pointer far
  notNull : ∀ call ∈ far.calls pagerThread,
    pointer.isNull (far.word call.ptr) = false

variable {pointer pagerThread}
variable {far after : Protocol.State Meta count numGcThreads}
variable {state next : State Meta count numGcThreads}

theorem FarInv.notNull_of_step {action : Protocol.Action count numGcThreads}
    (hfar : FarInv pointer pagerThread far)
    (hstep : Protocol.step pointer far action = some after)
    {call : Protocol.Call Meta} (hcall : call ∈ far.calls pagerThread) :
    pointer.isNull (after.word call.ptr) = false := by
  rcases hfar.protocol.word_of_step hstep call.ptr with hsame | hnotNull
  · rw [hsame]
    exact hfar.notNull call hcall
  · exact hnotNull

/-- A step of another thread or of the collector. -/
theorem FarInv.other {action : Protocol.Action count numGcThreads}
    (hfar : FarInv pointer pagerThread far)
    (hother : Protocol.threadOf action ≠ some pagerThread)
    (hfresh : Protocol.NoStaleId pointer far action)
    (hstep : Protocol.step pointer far action = some after) :
    FarInv pointer pagerThread after where
  protocol := hfar.protocol.step hfresh hstep
  notNull call hcall := by
    rw [Protocol.calls_of_step hother hstep] at hcall
    exact hfar.notNull_of_step hstep hcall

theorem FarInv.assign {ptr : Slot} {word : Meta} {object : Protocol.Denoted}
    (hfar : FarInv pointer pagerThread far)
    (hnames : pointer.isPresent word = false →
      pointer.getObjectId word = object.objId)
    (hcalls : ∀ thread, ∀ call ∈ far.calls thread, call.ptr ≠ ptr)
    (hworkers : ∀ id, ∀ worker ∈ far.workers id, worker.ptr ≠ ptr) :
    FarInv pointer pagerThread (far.assign ptr word object) where
  protocol := hfar.protocol.assign hnames hcalls hworkers
  notNull call hcall := by
    have hsame : (far.assign ptr word object).word call.ptr = far.word call.ptr :=
      Heap.metas_setMeta_of_ne _ _ (hcalls pagerThread call hcall)
    rw [hsame]
    exact hfar.notNull call hcall

/-- The pager begins a `swap_in` on a pointer that is not null. -/
theorem FarInv.call {ptr : Slot} (hfar : FarInv pointer pagerThread far)
    (hnotNull : pointer.isNull (far.word ptr) = false)
    (hstep : Protocol.step pointer far (.call pagerThread ptr) = some after) :
    FarInv pointer pagerThread after where
  protocol := hfar.protocol.step (Protocol.noStaleId_of_thread rfl) hstep
  notNull call hcall := by
    rw [(Protocol.step_call_eq_some hstep).2] at hcall ⊢
    rw [Protocol.State.calls_setCall_self] at hcall
    cases hcall
    exact hnotNull

theorem FarInv.finish (hfar : FarInv pointer pagerThread far)
    (hstep : Protocol.step pointer far (.finish pagerThread) = some after) :
    FarInv pointer pagerThread after where
  protocol := hfar.protocol.step (Protocol.noStaleId_of_thread rfl) hstep
  notNull call hcall := by
    rw [Protocol.step_finish_eq_some hstep, Protocol.State.calls_setCall_self]
      at hcall
    cases hcall

theorem FarInv.swapIn {objAddr : ℕ} (hfar : FarInv pointer pagerThread far)
    (hstep : Protocol.step pointer far (.swapIn pagerThread objAddr) = some after) :
    FarInv pointer pagerThread after where
  protocol := hfar.protocol.step (Protocol.noStaleId_of_thread rfl) hstep
  notNull call hcall := by
    obtain ⟨before, hbefore, shared, pc, -, heq⟩ :=
      Protocol.step_swapIn_eq_some hstep
    have hptr : call.ptr = before.ptr := by
      rw [heq, Protocol.State.calls_setCall_self] at hcall
      cases hcall
      rfl
    rw [hptr]
    exact hfar.notNull_of_step hstep hbefore

/-- The only word that a step of the pager's `swap_in` changes is the one it is
called on. -/
theorem FarInv.word_of_swapIn {objAddr : ℕ} (hfar : FarInv pointer pagerThread far)
    (hstep : Protocol.step pointer far (.swapIn pagerThread objAddr) = some after)
    {ptr : Slot} (hnull : pointer.isNull (far.word ptr) = true) :
    after.word ptr = far.word ptr := by
  obtain ⟨call, hcall, shared, pc, hswapIn, rfl⟩ :=
    Protocol.step_swapIn_eq_some hstep
  rcases SwapIn.metas_step hswapIn with hsame | ⟨key, addr, pending, hpc, -⟩
  · exact hsame
  · have hok := hfar.protocol.calls pagerThread call hcall
    rw [hpc] at hok
    rcases hok.2 with hnil | ⟨hpending, -⟩
    · cases hnil
    · obtain rfl : ptr = call.ptr := (List.cons.inj hpending).1
      cases hnull.symm.trans (hfar.notNull call hcall)

theorem FarInv.step {action : Action count numGcThreads Meta}
    (hfar : FarInv pointer pagerThread state.far)
    (hundisturbed : Undisturbed pointer state action)
    (hstep : step pointer pagerThread state action = some next) :
    FarInv pointer pagerThread next.far := by
  cases action with
  | far action =>
      simp only [Pager.step] at hstep
      split at hstep
      · cases hstep
      · rename_i hother
        obtain ⟨after, hafter, rfl⟩ := Option.map_eq_some_iff.mp hstep
        exact hfar.other hother (hundisturbed.fresh action rfl) hafter
  | assign ptr word object =>
      simp only [Pager.step] at hstep
      split at hstep <;> cases hstep
      rename_i hnames
      obtain ⟨hcalls, hworkers⟩ := hundisturbed.assigned ptr word object rfl
      exact hfar.assign hnames hcalls hworkers
  | registerObject ptr size =>
      simp only [Pager.step] at hstep
      split at hstep <;> cases hstep
      exact hfar
  | stopDynamicPager =>
      simp only [Pager.step, Option.some.injEq] at hstep
      subst hstep
      exact hfar
  | pager objAddr =>
      rcases pagerStep_far hstep with hsame | ⟨ref, rest, hpc, hcall⟩ | hfinish |
        hswapIn
      · rw [hsame]
        exact hfar
      · exact hfar.call (hundisturbed.notNull objAddr ref rest rfl hpc) hcall
      · exact hfar.finish hfinish
      · exact hfar.swapIn hswapIn
  | memory =>
      rw [memoryStep_far hstep]
      exact hfar

theorem Started.farInv (hstarted : Started pointer state) :
    FarInv pointer pagerThread state.far where
  protocol := hstarted.far.inv
  notNull call hcall := by
    cases (hstarted.far.calls pagerThread).symm.trans hcall

theorem farInv_of_reachable
    (hreachable : (machine pointer pagerThread).ReachableUnder
      (Undisturbed pointer) state) : FarInv pointer pagerThread state.far :=
  hreachable.invariant (fun state => FarInv pointer pagerThread state.far)
    (fun {state} (hstarted : Started pointer state) => hstarted.farInv)
    fun hfar hundisturbed hstep => hfar.step hundisturbed hstep

/-- In every undisturbed run the pager swaps in swapped-out objects only, and
null pointers stay null. -/
theorem onlySwappedOut
    (hreachable : (machine pointer pagerThread).ReachableUnder
      (Undisturbed pointer) state) :
    OnlySwappedOut pointer pagerThread state := by
  have hfar := farInv_of_reachable hreachable
  constructor
  · intro call hcall hloading
    have hok := hfar.protocol.calls pagerThread call hcall
    constructor
    · cases hpc : call.pc with
      | allocate key | readDsId key addr | readObject key addr dsId =>
          rw [hpc] at hok
          exact hok.2
      | _ =>
          rw [hpc] at hloading
          exact hloading.elim
    · exact hfar.notNull call hcall
  · intro objAddr next hstep ptr hnull
    rcases pagerStep_far hstep with hsame | ⟨ref, rest, -, hcall⟩ | hfinish |
      hswapIn
    · rw [hsame]
    · rw [(Protocol.step_call_eq_some hcall).2]
      rfl
    · rw [Protocol.step_finish_eq_some hfinish]
      rfl
    · exact hfar.word_of_swapIn hswapIn hnull

/-! ## A swapped-out and a freed pointer -/

/-- A scan, then the pager up to its allocation for the pointer at 8. -/
def loadRun : List (Action 2 1 ℕ) :=
  List.replicate 7 .memory ++ List.replicate 8 (.pager 4096)

/-- The object at 8 is freed before the scan. -/
def freedRun : List (Action 2 1 ℕ) :=
  .assign 8 ((FarMemPtrMeta.pointerHpp 16).nullify Protocol.remoteWord)
    { Protocol.remoteObject with objId := 0, objId_lt := Protocol.zero_lt_objIds } :: loadRun

/-- Only the two threads run, and the pager's test meets no null pointer. -/
def onlyThreads (state : State ℕ 2 1) : Action 2 1 ℕ → Bool
  | .pager _ =>
      match state.pager with
      | .checkPresent ref _ =>
          !(FarMemPtrMeta.pointerHpp 16).isNull (state.far.word ref.ptr)
      | _ => true
  | .memory => true
  | _ => false

theorem undisturbed_of_onlyThreads {state : State ℕ 2 1} {action : Action 2 1 ℕ}
    (hcheck : onlyThreads state action = true) :
    Undisturbed (FarMemPtrMeta.pointerHpp 16) state action where
  notNull objAddr ref rest haction hpc := by
    subst haction
    simpa [onlyThreads, hpc] using hcheck
  assigned ptr word object haction := by
    subst haction
    cases hcheck
  fresh far haction := by
    subst haction
    cases hcheck

theorem run_loadRun :
    ∃ state, (machine (FarMemPtrMeta.pointerHpp 16) 1).run smallCache loadRun =
        some state ∧ state.far.calls 1 = some ⟨8, .allocate 7⟩ :=
  ⟨_, rfl, by decide⟩

theorem onlySwappedOut_loadRun :
    ∃ state, (machine (FarMemPtrMeta.pointerHpp 16) 1).run smallCache loadRun =
        some state ∧ state.far.calls 1 = some ⟨8, .allocate 7⟩ ∧
      OnlySwappedOut (FarMemPtrMeta.pointerHpp 16) 1 state := by
  obtain ⟨state, hrun, hcall⟩ := run_loadRun
  exact ⟨state, hrun, hcall, onlySwappedOut (.of_run undisturbed_of_onlyThreads
    (.initial started_smallCache) hrun (by decide))⟩

theorem run_freedRun :
    ∃ state, (machine (FarMemPtrMeta.pointerHpp 16) 1).run smallCache freedRun =
        some state ∧ state.far.calls 1 = some ⟨8, .allocate 0⟩ ∧
      (FarMemPtrMeta.pointerHpp 16).isNull (state.far.word 8) = true :=
  ⟨_, rfl, by decide, by decide⟩

/-- The pager allocates for the freed pointer, by object id 0. -/
theorem not_forall_onlySwappedOut :
    ¬ ∀ (pointer : FarMemPtrMeta ℕ) (state : State ℕ 2 1),
      (machine pointer 1).Reachable state → OnlySwappedOut pointer 1 state := by
  intro hclaim
  obtain ⟨state, hrun, hcall, hnull⟩ := run_freedRun
  have honly := hclaim _ state (.of_run started_smallCache hrun)
  have hswappedOut := honly.loads ⟨8, .allocate 0⟩ hcall trivial
  cases hnull.symm.trans hswappedOut.2

end DynamicSwap.Pager
