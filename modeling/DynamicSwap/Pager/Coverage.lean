import DynamicSwap.Library.History
import DynamicSwap.Pager.Headroom

/-!
# What a pass of the pager achieves

The pass of `dynamic_pager` visits the items in the order of registration, and
the other threads and the collector run beside it.  Every item that it has
passed was local at some moment of the pass: found so by the pager's test or by
a test of `swap_in`, or set present by the pager's own call.  Only a write-back
or an assignment to the pointer takes such an item away again, and only a
shortage ends the pass early.
-/

namespace DynamicSwap.Pager

open SwapIn (Pc)
open Library

variable {Meta : Type} {count numGcThreads : ℕ}
variable {pointer : FarMemPtrMeta Meta} {pagerThread : Fin count}

/-! ## Which steps take an object away -/

/-- The step writes the object behind the pointer back, or gives the pointer
another object. -/
def Displaces (ptr : Slot) (state : State Meta count numGcThreads)
    (action : Action count numGcThreads Meta) : Prop :=
  (∃ word object, action = .assign ptr word object) ∨
    ∃ id, action = .far (.work id none) ∧
      state.far.workers id = some ⟨ptr, .gcStore⟩

section Loss

variable {far after : Protocol.State Meta count numGcThreads}

theorem isPresent_setWord {ptr slot : Slot} {word : Meta}
    (hword : slot = ptr → pointer.isPresent word = true)
    (hpresent : isPresent pointer far slot = true) :
    isPresent pointer (far.setWord ptr word) slot = true := by
  by_cases heq : slot = ptr
  · subst slot
    simpa only [isPresent, Protocol.State.word, Protocol.State.setWord,
      Heap.metas_setMeta_self] using hword rfl
  · simpa only [isPresent, Protocol.State.word, Protocol.State.setWord,
      Heap.metas_setMeta_of_ne _ _ heq] using hpresent

/-- Besides `gc_wb`, every store of a worker leaves a local object local. -/
theorem isPresent_of_workerStep {slot : Slot} {id : Fin numGcThreads}
    {copyAddr : Option ℕ} {worker : Protocol.Worker}
    (hstep : Protocol.workerStep pointer far id copyAddr worker = some after)
    (hkept : ¬ (copyAddr = none ∧ worker = ⟨slot, .gcStore⟩))
    (hpresent : isPresent pointer far slot = true) :
    isPresent pointer after slot = true := by
  obtain ⟨ptr, pc⟩ := worker
  cases pc with
  | markLock | writeBackLock =>
      simp only [Protocol.workerStep, Protocol.lockObject] at hstep
      split at hstep <;> cases hstep
      exact hpresent
  | setEvacuation =>
      cases hstep
      refine isPresent_setWord (fun heq => ?_) hpresent
      subst slot
      exact pointer.isPresent_setEvacuation _ hpresent
  | gcStore =>
      simp only [Protocol.workerStep] at hstep
      split at hstep <;> cases hstep
      refine isPresent_setWord (fun heq => ?_) hpresent
      subst slot
      cases copyAddr with
      | none => exact absurd ⟨rfl, rfl⟩ hkept
      | some addr => exact pointer.isPresent_gcCopy _ _ hpresent
  | swapOut | unlock =>
      cases hstep
      exact hpresent

/-- A step of the threads and of the collector takes an object away by a
write-back only. -/
theorem isPresent_of_farStep {slot : Slot} {action : Protocol.Action count numGcThreads}
    (hstep : Protocol.step pointer far action = some after)
    (hkept : ∀ id, action = .work id none → far.workers id ≠ some ⟨slot, .gcStore⟩)
    (hpresent : isPresent pointer far slot = true) :
    isPresent pointer after slot = true := by
  cases action with
  | swapIn thread objAddr =>
      obtain ⟨call, -, shared, pc, hswapIn, rfl⟩ := Protocol.step_swapIn_eq_some hstep
      change pointer.isPresent (shared.heap.metas slot) = true
      rcases SwapIn.metas_step hswapIn with hsame | ⟨-, addr, -, -, hset⟩
      · rw [hsame]
        exact hpresent
      · rw [hset]
        exact pointer.isPresent_setPresent _ _
  | migrate thread ptr objAddr =>
      simp only [Protocol.step] at hstep
      split at hstep <;> cases hstep
      rename_i hguard
      exact isPresent_setWord (fun _ => pointer.isPresent_mutatorCopy _ _ hguard.2.1) hpresent
  | work id copyAddr =>
      obtain ⟨worker, hworker, hwork⟩ := Protocol.step_work_eq_some hstep
      refine isPresent_of_workerStep hwork ?_ hpresent
      rintro ⟨rfl, rfl⟩
      exact hkept id rfl hworker
  | _ =>
      simp only [Protocol.step] at hstep
      repeat' split at hstep
      all_goals
        cases hstep
      all_goals
        exact hpresent

end Loss

variable {state next : State Meta count numGcThreads}

theorem isPresent_of_step {ptr : Slot} {action : Action count numGcThreads Meta}
    (hstep : step pointer pagerThread state action = some next)
    (hkept : ¬ Displaces ptr state action)
    (hpresent : isPresent pointer state.far ptr = true) :
    isPresent pointer next.far ptr = true := by
  cases action with
  | far action =>
      simp only [step] at hstep
      split at hstep
      · cases hstep
      · obtain ⟨after, hafter, rfl⟩ := Option.map_eq_some_iff.mp hstep
        refine isPresent_of_farStep hafter (fun id haction hworker => ?_) hpresent
        exact hkept (.inr ⟨id, congrArg Action.far haction, hworker⟩)
  | assign slot word object =>
      simp only [step] at hstep
      split at hstep <;> cases hstep
      refine isPresent_setWord (fun heq => ?_) hpresent
      subst heq
      exact absurd (.inl ⟨word, object, rfl⟩) hkept
  | registerObject slot size =>
      simp only [step] at hstep
      split at hstep <;> cases hstep
      exact hpresent
  | stopDynamicPager =>
      cases hstep
      exact hpresent
  | pager objAddr =>
      rcases pagerStep_far hstep with hsame | ⟨ref, rest, -, hcall⟩ | hfinish | hswapIn
      · rw [hsame]
        exact hpresent
      · exact isPresent_of_farStep hcall (fun _ haction => by cases haction) hpresent
      · exact isPresent_of_farStep hfinish (fun _ haction => by cases haction) hpresent
      · exact isPresent_of_farStep hswapIn (fun _ haction => by cases haction) hpresent
  | memory =>
      rw [memoryStep_far hstep]
      exact hpresent

/-! ## What the pager's call has seen -/

/-- At the positions of `swap_in` behind its last test or its store, the object
has been local. -/
def CallSeen (wasLocal : Prop) (ptr : Slot) : Pc Meta → Prop
  | .setPresent _ _ pending => wasLocal ∨ pending = [ptr]
  | .decRefCnt _ _ | .unlock _ | .returned => wasLocal
  | .readId | .checkPresent _ | .lock _ | .checkAgain _ | .allocate _
  | .readDsId _ _ | .readObject _ _ _ | .checkShared _ _ => True

theorem CallSeen.swapIn {Thread : Type} {wasLocal : Prop} {thread : Thread} {ptr : Slot}
    {objAddr : ℕ} {shared after : Shared Meta Thread} {pc nextPc : Pc Meta}
    (hseen : CallSeen wasLocal ptr pc)
    (hstep : SwapIn.step pointer (fun slot => [slot]) thread ptr objAddr shared pc =
      some (after, nextPc)) :
    CallSeen (wasLocal ∨ pointer.isPresent (after.heap.metas ptr) = true) ptr nextPc := by
  cases pc with
  | checkPresent word | checkAgain key =>
      rw [SwapIn.step] at hstep
      split at hstep <;> cases hstep
      · exact .inr ‹_›
      · trivial
  | lock key | allocate key =>
      rw [SwapIn.step] at hstep
      split at hstep <;> cases hstep
      trivial
  | checkShared key addr =>
      cases hstep
      exact .inr (by simp [SwapIn.aliasesOf])
  | setPresent key addr pending =>
      cases pending with
      | nil =>
          cases hstep
          exact .inl (hseen.resolve_right (by simp))
      | cons slot pending =>
          cases hstep
          refine .inl (hseen.imp id fun hpending => ?_)
          cases hpending
          simp only [Heap.metas_setMeta_self, pointer.isPresent_setPresent]
  | decRefCnt key addr | unlock key =>
      cases hstep
      exact .inl hseen
  | returned => cases hstep
  | _ =>
      cases hstep
      trivial

/-! ## What a pass has passed -/

section Pass

variable (pointer) (pagerThread)
variable (start : State Meta count numGcThreads)
variable (actions : List (Action count numGcThreads Meta))

/-- The object behind the pointer was local at some moment of the run. -/
def WasLocal (ptr : Slot) : Prop :=
  ∃ moment ahead, (machine pointer pagerThread).Moment start actions moment ahead ∧
    isPresent pointer moment.far ptr = true

/-- Every item before `rest` was local at some moment of the run. -/
def VisitedUpTo (refs rest : List ObjRef) : Prop :=
  ∃ visited, refs = visited ++ rest ∧
    ∀ ref ∈ visited, WasLocal pointer pagerThread start actions ref.ptr

/-- The loop had `rest` before it when it found too little memory available. -/
def StoppedShort (rest : List ObjRef) : Prop :=
  ∃ moment ahead, (machine pointer pagerThread).Moment start actions moment ahead ∧
    moment.pager = .guard rest ∧ moment.availableMem < moment.swapThreshold

/-- What a pass that began after `start` has achieved at each position. -/
def PassOk (state : State Meta count numGcThreads) : Prop :=
  match state.pager with
  | .test | .lock | .stopped => True
  | .guard rest =>
      VisitedUpTo pointer pagerThread start actions state.registry.objectRefs rest
  | .checkPresent ref rest =>
      VisitedUpTo pointer pagerThread start actions state.registry.objectRefs (ref :: rest)
  | .swapIn ref rest =>
      VisitedUpTo pointer pagerThread start actions state.registry.objectRefs (ref :: rest) ∧
        ∃ pc, state.far.calls pagerThread = some ⟨ref.ptr, pc⟩ ∧
          CallSeen (WasLocal pointer pagerThread start actions ref.ptr) ref.ptr pc
  | .unlock => ∃ rest,
      VisitedUpTo pointer pagerThread start actions state.registry.objectRefs rest ∧
        (rest = [] ∨ StoppedShort pointer pagerThread start actions rest)

/-- The object was local at a moment of the run, and is local at its end unless
a later step displaced it. -/
def BroughtIn (final : State Meta count numGcThreads) (ptr : Slot) : Prop :=
  ∃ moment ahead, (machine pointer pagerThread).Moment start actions moment ahead ∧
    isPresent pointer moment.far ptr = true ∧
      (isPresent pointer final.far ptr = true ∨ ∃ before action rest,
        (machine pointer pagerThread).Moment moment ahead before (action :: rest) ∧
          Displaces ptr before action)

variable {pointer} {pagerThread} {start} {actions}
variable {refs rest : List ObjRef} {ptr : Slot}

theorem WasLocal.append (hlocal : WasLocal pointer pagerThread start actions ptr)
    (more : List (Action count numGcThreads Meta)) :
    WasLocal pointer pagerThread start (actions ++ more) ptr := by
  obtain ⟨moment, ahead, hmoment, hpresent⟩ := hlocal
  exact ⟨moment, ahead ++ more, hmoment.append more, hpresent⟩

theorem VisitedUpTo.append (hvisited : VisitedUpTo pointer pagerThread start actions refs rest)
    (more : List (Action count numGcThreads Meta)) :
    VisitedUpTo pointer pagerThread start (actions ++ more) refs rest := by
  obtain ⟨visited, hrefs, hlocal⟩ := hvisited
  exact ⟨visited, hrefs, fun ref href => (hlocal ref href).append more⟩

theorem StoppedShort.append (hshort : StoppedShort pointer pagerThread start actions rest)
    (more : List (Action count numGcThreads Meta)) :
    StoppedShort pointer pagerThread start (actions ++ more) rest := by
  obtain ⟨moment, ahead, hmoment, hstopped⟩ := hshort
  exact ⟨moment, ahead ++ more, hmoment.append more, hstopped⟩

/-- The loop goes past an item that was local. -/
theorem VisitedUpTo.pass {ref : ObjRef}
    (hvisited : VisitedUpTo pointer pagerThread start actions refs (ref :: rest))
    (hlocal : WasLocal pointer pagerThread start actions ref.ptr) :
    VisitedUpTo pointer pagerThread start actions refs rest := by
  obtain ⟨visited, hrefs, hvisited⟩ := hvisited
  refine ⟨visited ++ [ref], by simp [hrefs], fun other hother => ?_⟩
  rcases List.mem_append.mp hother with hbefore | hlast
  · exact hvisited other hbefore
  · rw [List.mem_singleton.mp hlast]
    exact hlocal

theorem CallSeen.mono {wasLocal later : Prop} {pc : Pc Meta}
    (hseen : CallSeen wasLocal ptr pc) (hlater : wasLocal → later) :
    CallSeen later ptr pc := by
  cases pc with
  | setPresent key addr pending => exact hseen.imp_left hlater
  | decRefCnt key addr | unlock key | returned => exact hlater hseen
  | _ => trivial

/-- A step that leaves the pager, its call and the registry as they are. -/
theorem PassOk.frame (hpass : PassOk pointer pagerThread start actions state)
    (hpager : next.pager = state.pager)
    (hrefs : state.pager.InPass → next.registry.objectRefs = state.registry.objectRefs)
    (hcalls : next.far.calls pagerThread = state.far.calls pagerThread)
    (more : List (Action count numGcThreads Meta)) :
    PassOk pointer pagerThread start (actions ++ more) next := by
  unfold PassOk at hpass ⊢
  rw [hpager]
  cases hpc : state.pager with
  | test | lock | stopped => trivial
  | guard rest | checkPresent ref rest =>
      simp only [hpc] at hpass ⊢
      rw [hrefs (by rw [hpc]; trivial)]
      exact hpass.append more
  | swapIn ref rest =>
      simp only [hpc] at hpass ⊢
      obtain ⟨hvisited, pc, hcall, hseen⟩ := hpass
      rw [hrefs (by rw [hpc]; trivial), hcalls]
      exact ⟨hvisited.append more, pc, hcall, hseen.mono fun hlocal => hlocal.append more⟩
  | unlock =>
      simp only [hpc] at hpass ⊢
      obtain ⟨rest, hvisited, hend⟩ := hpass
      rw [hrefs (by rw [hpc]; trivial)]
      exact ⟨rest, hvisited.append more, hend.imp_right fun hshort => hshort.append more⟩

/-- The pager's test goes past an item only where it is local. -/
theorem isPresent_of_passed {objAddr : ℕ} {ref : ObjRef}
    (hpc : state.pager = .checkPresent ref rest)
    (hstep : pagerStep pointer pagerThread state objAddr =
      some { state with pager := .guard rest }) :
    isPresent pointer state.far ref.ptr = true := by
  rw [pagerStep, hpc] at hstep
  by_contra habsent
  simp only [if_neg habsent, Option.map_eq_some_iff] at hstep
  obtain ⟨far, -, hnext⟩ := hstep
  cases congrArg State.pager hnext

/-- A call that ends has returned. -/
theorem CallSeen.finish {far after : Protocol.State Meta count numGcThreads}
    {wasLocal : Prop} {pc : Pc Meta} (hseen : CallSeen wasLocal ptr pc)
    (hcall : far.calls pagerThread = some ⟨ptr, pc⟩)
    (hstep : Protocol.step pointer far (.finish pagerThread) = some after) :
    wasLocal := by
  simp only [Protocol.step, hcall] at hstep
  split at hstep
  · rename_i heq
    cases heq
    exact hseen
  · cases hstep

/-- A step of the pager itself. -/
theorem PassOk.pagerStep {objAddr : ℕ} {action : Action count numGcThreads Meta}
    (hpass : PassOk pointer pagerThread start actions state)
    (hrun : (machine pointer pagerThread).run start actions = some state)
    (hrun' : (machine pointer pagerThread).run start (actions ++ [action]) = some next)
    (hstep : pagerStep pointer pagerThread state objAddr = some next) :
    PassOk pointer pagerThread start (actions ++ [action]) next := by
  have hhere := (Machine.Moment.here hrun).append [action]
  cases pagerMove_of_pagerStep hstep with
  | test hpc =>
      unfold PassOk
      split_ifs <;> trivial
  | lock hpc hfree => exact ⟨[], rfl, by simp⟩
  | visited hpc =>
      simp only [PassOk, hpc] at hpass
      exact ⟨[], hpass.append [action], .inl rfl⟩
  | short ref rest hpc hshort =>
      simp only [PassOk, hpc] at hpass
      exact ⟨ref :: rest, hpass.append [action], .inr ⟨state, _, hhere, hpc, hshort⟩⟩
  | enough ref rest hpc henough =>
      simp only [PassOk, hpc] at hpass
      exact hpass.append [action]
  | present ref rest hpc =>
      simp only [PassOk, hpc] at hpass
      exact (hpass.append [action]).pass ⟨state, _, hhere, isPresent_of_passed hpc hstep⟩
  | call ref rest far hpc hcall =>
      simp only [PassOk, hpc] at hpass
      refine ⟨hpass.append [action], .readId, ?_, trivial⟩
      rw [(Protocol.step_call_eq_some hcall).2]
      exact Protocol.State.calls_setCall_self
  | finish ref rest far hpc hfinish =>
      simp only [PassOk, hpc] at hpass
      obtain ⟨hvisited, pc, hcall, hseen⟩ := hpass
      exact (hvisited.append [action]).pass ((hseen.finish hcall hfinish).append [action])
  | swapIn ref rest far hpc hswapIn =>
      simp only [PassOk, hpc] at hpass ⊢
      obtain ⟨hvisited, pc, hcall, hseen⟩ := hpass
      obtain ⟨call, hother, shared, nextPc, hmove, rfl⟩ :=
        Protocol.step_swapIn_eq_some hswapIn
      cases Eq.trans (Eq.symm hcall) hother
      refine ⟨hvisited.append [action], nextPc, Protocol.State.calls_setCall_self, ?_⟩
      refine (hseen.swapIn hmove).mono fun hlocal => ?_
      rcases hlocal with hbefore | hnow
      · exact hbefore.append [action]
      · exact ⟨_, [], Machine.Moment.here hrun', hnow⟩
  | unlock hpc => trivial

/-- Nothing is registered while the pager has the mutex. -/
theorem registry_of_step {action : Action count numGcThreads Meta} (hinv : Inv state)
    (hinside : state.pager.InPass)
    (hstep : step pointer pagerThread state action = some next) :
    next.registry = state.registry := by
  cases action with
  | far action =>
      simp only [Pager.step] at hstep
      split at hstep
      · cases hstep
      · obtain ⟨after, -, rfl⟩ := Option.map_eq_some_iff.mp hstep
        rfl
  | assign slot word object =>
      simp only [Pager.step] at hstep
      split at hstep <;> cases hstep
      rfl
  | registerObject slot size =>
      simp only [Pager.step] at hstep
      split at hstep <;> cases hstep
      rename_i hfree
      cases hfree.symm.trans (hinv.pass hinside)
  | stopDynamicPager =>
      cases hstep
      rfl
  | pager objAddr => exact (pagerStep_frame hstep).1
  | memory => exact memoryStep_registry hstep

theorem PassOk.step {action : Action count numGcThreads Meta}
    (hpass : PassOk pointer pagerThread start actions state) (hinv : Inv state)
    (hrun : (machine pointer pagerThread).run start actions = some state)
    (hstep : step pointer pagerThread state action = some next) :
    PassOk pointer pagerThread start (actions ++ [action]) next := by
  have hnext : (machine pointer pagerThread).run start (actions ++ [action]) = some next :=
    Machine.run_append.mpr ⟨state, hrun, Machine.run_cons.mpr ⟨next, hstep, rfl⟩⟩
  by_cases hpager : ∃ objAddr, action = .pager objAddr
  · obtain ⟨objAddr, rfl⟩ := hpager
    exact hpass.pagerStep hrun hnext hstep
  · obtain ⟨hsame, hcalls⟩ := pager_of_step (not_exists.mp hpager) hstep
    refine hpass.frame hsame (fun hinside => ?_) hcalls [action]
    rw [registry_of_step hinv hinside hstep]

theorem passOk_of_run (hreachable : (machine pointer pagerThread).Reachable start)
    (hlock : start.pager = .lock)
    (hrun : (machine pointer pagerThread).run start actions = some state) :
    PassOk pointer pagerThread start actions state := by
  refine Machine.run_history (PassOk pointer pagerThread start) ?_ ?_ hrun
  · simp only [PassOk, hlock]
  · intro past state next action hpast hpass hstep
    exact hpass.step (inv_of_reachable (hreachable.run hpast)) hpast hstep

theorem WasLocal.broughtIn (hlocal : WasLocal pointer pagerThread start actions ptr)
    (hrun : (machine pointer pagerThread).run start actions = some state) :
    BroughtIn pointer pagerThread start actions state ptr := by
  obtain ⟨moment, ahead, hmoment, hpresent⟩ := hlocal
  refine ⟨moment, ahead, hmoment, hpresent, ?_⟩
  by_cases hlast : isPresent pointer state.far ptr = true
  · exact .inl hlast
  · obtain ⟨before, action, after, rest, hbefore, hstep, hheld, hlost⟩ :=
      Machine.exists_losing_step (fun state => isPresent pointer state.far ptr = true)
        hpresent (hmoment.run hrun) hlast
    refine .inr ⟨before, action, rest, hbefore, ?_⟩
    by_contra hkept
    exact hlost (isPresent_of_step hstep hkept hheld)

end Pass

/-- At the end of a pass every registered item has been brought in, up to the
item at which too little memory was available. -/
theorem pass_brings_in {start final : State Meta count numGcThreads}
    {actions : List (Action count numGcThreads Meta)}
    (hreachable : (machine pointer pagerThread).Reachable start)
    (hlock : start.pager = .lock)
    (hrun : (machine pointer pagerThread).run start actions = some final)
    (hdone : final.pager = .unlock) :
    ∃ visited rest, final.registry.objectRefs = visited ++ rest ∧
      (∀ ref ∈ visited, BroughtIn pointer pagerThread start actions final ref.ptr) ∧
        (rest = [] ∨ StoppedShort pointer pagerThread start actions rest) := by
  have hpass := passOk_of_run hreachable hlock hrun
  simp only [PassOk, hdone] at hpass
  obtain ⟨rest, ⟨visited, hrefs, hlocal⟩, hend⟩ := hpass
  exact ⟨visited, rest, hrefs, fun ref href => (hlocal ref href).broughtIn hrun, hend⟩

/-! ## A pass beside a write-back -/

/-- A scan, after which the pager is about to take the mutex. -/
def scannedRun : List (Action 2 1 ℕ) :=
  List.replicate 7 .memory ++ [.pager 0]

/-- The pass brings both items in, and the collector writes the first one back
before the second is visited. -/
def displacingRun : List (Action 2 1 ℕ) :=
  List.replicate 16 (.pager 4096) ++ Protocol.writeBackRun.map .far ++
    List.replicate 16 (.pager 8192)

theorem exists_displacingRun :
    ∃ start final,
      (machine (FarMemPtrMeta.pointerHpp 16) 1).run smallCache scannedRun = some start ∧
        start.pager = .lock ∧
          (machine (FarMemPtrMeta.pointerHpp 16) 1).run start displacingRun = some final ∧
            final.pager = .unlock ∧
              isPresent (FarMemPtrMeta.pointerHpp 16) final.far 8 = false :=
  ⟨_, _, rfl, rfl, rfl, rfl, by decide⟩

theorem pass_brings_in_displacingRun :
    ∃ start final,
      (machine (FarMemPtrMeta.pointerHpp 16) 1).run start displacingRun = some final ∧
        isPresent (FarMemPtrMeta.pointerHpp 16) final.far 8 = false ∧
          ∃ visited rest, final.registry.objectRefs = visited ++ rest ∧
            (∀ ref ∈ visited, BroughtIn (FarMemPtrMeta.pointerHpp 16) 1 start displacingRun
              final ref.ptr) ∧
              (rest = [] ∨
                StoppedShort (FarMemPtrMeta.pointerHpp 16) 1 start displacingRun rest) := by
  obtain ⟨start, final, hscanned, hlock, hrun, hdone, habsent⟩ := exists_displacingRun
  exact ⟨start, final, hrun, habsent,
    pass_brings_in (.of_run started_smallCache hscanned) hlock hrun hdone⟩

end DynamicSwap.Pager
