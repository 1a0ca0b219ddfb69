import DynamicSwap.Library.Sections
import DynamicSwap.Region.Refill

/-!
# The critical sections of `region_spin_`

`RegionManager` runs its operations under `region_spin_`, step by step: while a
thread is inside one, cores allocate in their own regions without the lock, and
reference counts change between two tests of `is_gcable`.  Every interleaving is
nevertheless a sequence of whole refills, picks and pushes, and `pop_used_region`
behaves as if the reference counts stood still.
-/

namespace DynamicSwap.Locking

open Library (Sections)
open Circulation (GcPhase)

/-- `none` is the GC master and `some core` the thread on a core. -/
abbrev Thread := Option (Fin kNumCPUs)

inductive Call
  | tryRefill (nt : Bool)
  | popUsedRegion
  | pushFreeRegion
  deriving DecidableEq

/-- The local variables of an operation at each of its steps. -/
inductive Local
  | testFull (nt : Bool)
  | chooseQueue (nt : Bool)
  | pushFull (nt toNt : Bool)
  | testSlot (nt : Bool)
  | popFree (nt : Bool)
  | setNt (success : Bool)
  | ntPopFront (retryTimes : ℕ)
  | ntTest (retryTimes : ℕ) (region : Region)
  | ntPushBack (retryTimes : ℕ) (region : Region)
  | popFront (retryTimes : ℕ)
  | test (retryTimes : ℕ) (region : Region)
  | pushFront (retryTimes : ℕ) (region : Region)
  | reset
  | pushFree (region : Region)
  deriving DecidableEq

inductive Result
  | refilled (success : Bool)
  | popped (region : Option Region)
  | pushed
  deriving DecidableEq

/-- Steps without the lock: a core allocates in its own region, and the master
begins a round or ends the loop that pushes the from-regions. -/
inductive Request
  | allocateObject (nt : Bool) (objectSize : ℕ)
  | beginPick (numRegionsPerGcRound : ℕ)
  | endRound
  deriving DecidableEq

variable (ops : RegionOps) (kPickRegionMaxRetryTimes : ℕ)

def enter : Call → Local
  | .tryRefill nt => .testFull nt
  | .popUsedRegion => .ntPopFront 0
  | .pushFreeRegion => .reset

/-- `try_refill_core_local_free_region(nt, &core_local_free_region(nt))`. -/
def refillStep (core : Fin kNumCPUs) (manager : RegionManager) :
    Local → Option (RegionManager × (Local ⊕ Result))
  | .testFull nt =>
      some (manager, .inl
        (if (manager.coreLocalFreeRegion core nt).isInvalid then .testSlot nt
          else .chooseQueue nt))
  | .chooseQueue nt =>
      let full := manager.coreLocalFreeRegion core nt
      some (manager, .inl (.pushFull nt (full.isLocal && manager.isNt ops full)))
  | .pushFull nt true =>
      let full := manager.coreLocalFreeRegion core nt
      match RegionManager.pushBack manager.capacity manager.ntUsedRegions full with
      | none => none
      | some ntUsedRegions =>
          some ({ manager with ntUsedRegions := ntUsedRegions }.setCoreLocalFreeRegion
            core nt (ops.moved full), .inl (.testSlot nt))
  | .pushFull nt false =>
      let full := manager.coreLocalFreeRegion core nt
      match RegionManager.pushBack manager.capacity manager.usedRegions full with
      | none => none
      | some usedRegions =>
          some ({ manager with usedRegions := usedRegions }.setCoreLocalFreeRegion
            core nt (ops.moved full), .inl (.testSlot nt))
  | .testSlot nt =>
      some (manager,
        if (manager.coreLocalFreeRegion core nt).isInvalid then .inl (.popFree nt)
        else .inr (.refilled true))
  | .popFree nt =>
      let next (success : Bool) : Local ⊕ Result :=
        if nt then .inl (.setNt success) else .inr (.refilled success)
      match manager.freeRegions with
      | [] => some (manager, next false)
      | region :: freeRegions =>
          some ({ manager with freeRegions := freeRegions }.setCoreLocalFreeRegion
            core nt region, next true)
  | .setNt success =>
      some (manager.setNt ops (manager.coreLocalFreeRegion core true),
        .inr (.refilled success))
  | _ => none

/-- What the master does with the result of `pop_used_region`.  The from-regions
are its own, so this is part of the section's last step. -/
def finishPick (picked : Option Region) (state : Circulation.State) :
    Option (Circulation.State × (Local ⊕ Result)) :=
  match state.phase, picked with
  | .picking _, none =>
      some ({ state with phase := .pushing 0 }, .inr (.popped none))
  | .picking numRegionsPerGcRound, some region =>
      some ({ state with
        fromRegions := state.fromRegions ++ [region]
        phase :=
          if (state.fromRegions ++ [region]).length < numRegionsPerGcRound then
            .picking numRegionsPerGcRound
          else .pushing 0 }, .inr (.popped (some region)))
  | _, _ => none

/-- `pop_used_region`, where `isGcable` is the answer of this test. -/
def pickStep (isGcable : Bool) (state : Circulation.State) :
    Local → Option (Circulation.State × (Local ⊕ Result))
  | .ntPopFront retryTimes =>
      match state.manager.ntUsedRegions with
      | [] => some (state, .inl (.popFront 0))
      | region :: queue =>
          some ({ state with manager := { state.manager with ntUsedRegions := queue } },
            .inl (.ntTest retryTimes region))
  | .ntTest retryTimes region =>
      if isGcable then finishPick (some region) state
      else some (state, .inl (.ntPushBack retryTimes region))
  | .ntPushBack retryTimes region =>
      some ({ state with
        manager :=
          { state.manager with
            ntUsedRegions := state.manager.ntUsedRegions ++ [region] } },
        .inl (if retryTimes ≤ kPickRegionMaxRetryTimes then .ntPopFront (retryTimes + 1)
          else .popFront 0))
  | .popFront retryTimes =>
      match state.manager.usedRegions with
      | [] => finishPick none state
      | region :: queue =>
          some ({ state with manager := { state.manager with usedRegions := queue } },
            .inl (.test retryTimes region))
  | .test retryTimes region =>
      if isGcable then finishPick (some region) state
      else some (state, .inl (.pushFront retryTimes region))
  | .pushFront retryTimes region =>
      let state : Circulation.State :=
        { state with
          manager :=
            { state.manager with
              usedRegions := region :: state.manager.usedRegions } }
      if retryTimes ≤ kPickRegionMaxRetryTimes then
        some (state, .inl (.popFront (retryTimes + 1)))
      else finishPick none state
  | _ => none

/-- `push_free_region` of the next from-region. -/
def pushStep (state : Circulation.State) :
    Local → Option (Circulation.State × (Local ⊕ Result))
  | .reset =>
      match state.phase with
      | .pushing pushed =>
          match state.fromRegions[pushed]? with
          | none => none
          | some region =>
              some ({ state with
                manager :=
                  { state.manager with
                    headers := Function.update state.manager.headers
                      (ops.headerIdx region)
                      (ops.resetHeader
                        (state.manager.headers (ops.headerIdx region))) } },
                .inl (.pushFree region))
      | _ => none
  | .pushFree region =>
      match state.phase with
      | .pushing pushed =>
          match RegionManager.pushBack state.manager.capacity state.manager.freeRegions
              (ops.reset region) with
          | none => none
          | some freeRegions =>
              some ({ manager := { state.manager with freeRegions := freeRegions }
                      fromRegions := state.fromRegions.set pushed (ops.moved region)
                      phase := .pushing (pushed + 1) }, .inr .pushed)
      | _ => none
  | _ => none

/-- The operations of the cores and of the master. -/
def step (thread : Thread) (here : Local) (isGcable : Bool) (state : Circulation.State) :
    Option (Circulation.State × (Local ⊕ Result)) :=
  match thread, here with
  | some core, here =>
      match refillStep ops core state.manager here with
      | none => none
      | some (manager, outcome) => some ({ state with manager := manager }, outcome)
  | none, .reset => pushStep ops state .reset
  | none, .pushFree region => pushStep ops state (.pushFree region)
  | none, here => pickStep kPickRegionMaxRetryTimes isGcable state here

/-- `allocate_object` on a core's own region, and the master's private steps. -/
def free (thread : Thread) (request : Request) (state : Circulation.State) :
    Option Circulation.State :=
  match thread, request with
  | some core, .allocateObject nt objectSize =>
      match ops.allocateObject (state.manager.coreLocalFreeRegion core nt) objectSize with
      | none => none
      | some (_, region) =>
          some { state with
            manager := state.manager.setCoreLocalFreeRegion core nt region }
  | none, .beginPick numRegionsPerGcRound =>
      if state.phase = .idle then
        some { state with
          fromRegions := []
          phase := .picking numRegionsPerGcRound }
      else none
  | none, .endRound =>
      match state.phase with
      | .pushing pushed =>
          if state.fromRegions[pushed]? = none then some { state with phase := .idle }
          else none
      | _ => none
  | _, _ => none

def sections : Sections Thread Call Local Bool Result Request Circulation.State where
  enter := enter
  step := step ops kPickRegionMaxRetryTimes
  free := free ops

/-- The whole operations, as the circulation of regions takes them. -/
inductive Atomic : Thread → Call → Result → Circulation.State → Circulation.State → Prop
  | tryRefill {core : Fin kNumCPUs} {nt success : Bool} {state : Circulation.State}
      {manager : RegionManager}
      (hrefill : state.manager.tryRefillCoreLocalFreeRegion ops core nt =
        some (success, manager)) :
      Atomic (some core) (.tryRefill nt) (.refilled success) state
        { state with manager := manager }
  | popUsedRegion {isGcable : Region → Bool} {state next : Circulation.State}
      (hpick : Circulation.step ops kPickRegionMaxRetryTimes state (.pick isGcable) =
        some next) :
      Atomic none .popUsedRegion
        (.popped (state.manager.popUsedRegion kPickRegionMaxRetryTimes isGcable).1)
        state next
  | pushFreeRegion {pushed : ℕ} {state next : Circulation.State}
      (hphase : state.phase = .pushing pushed) (hpushed : pushed < state.fromRegions.length)
      (hpush : Circulation.step ops kPickRegionMaxRetryTimes state .push = some next) :
      Atomic none .pushFreeRegion .pushed state next

/-! ## Lock-free steps move to before a section -/

section Movers

variable {ops kPickRegionMaxRetryTimes}
variable {manager next : RegionManager} {state after : Circulation.State}
variable {core other : Fin kNumCPUs} {nt otherNt isGcable : Bool} {here : Local}
variable {outcome : Local ⊕ Result}

/-- Another core's slot gets a new region. -/
def setSlot (core : Fin kNumCPUs) (nt : Bool) (region : Region)
    (state : Circulation.State) : Circulation.State :=
  { state with manager := state.manager.setCoreLocalFreeRegion core nt region }

theorem setCoreLocalFreeRegion_comm (hne : other ≠ core) (first second : Region) :
    (manager.setCoreLocalFreeRegion core nt first).setCoreLocalFreeRegion other otherNt
        second =
      (manager.setCoreLocalFreeRegion other otherNt second).setCoreLocalFreeRegion core nt
        first := by
  have hcores : (other : ℕ) ≠ core := fun hsame => hne (Fin.ext hsame)
  cases nt <;> cases otherNt <;>
    simp [RegionManager.setCoreLocalFreeRegion, List.set_comm _ _ hcores]

theorem coreLocalFreeRegion_set_other (hne : other ≠ core) (region : Region) :
    (manager.setCoreLocalFreeRegion core nt region).coreLocalFreeRegion other otherNt =
      manager.coreLocalFreeRegion other otherNt :=
  RegionManager.coreLocalFreeRegion_set_of_ne region fun hsame => hne hsame.1

theorem setNt_setCoreLocalFreeRegion (target region : Region) :
    (manager.setCoreLocalFreeRegion core nt region).setNt ops target =
      (manager.setNt ops target).setCoreLocalFreeRegion core nt region := by
  cases nt <;> rfl

theorem isNt_setCoreLocalFreeRegion (target region : Region) :
    (manager.setCoreLocalFreeRegion core nt region).isNt ops target =
      manager.isNt ops target := by
  cases nt <;> rfl

/-- A refill neither sees nor touches the slots of other cores. -/
theorem refillStep_setCoreLocalFreeRegion (hne : other ≠ core)
    (hstep : refillStep ops core manager here = some (next, outcome)) (region : Region) :
    next.coreLocalFreeRegion other otherNt = manager.coreLocalFreeRegion other otherNt ∧
      refillStep ops core (manager.setCoreLocalFreeRegion other otherNt region) here =
        some (next.setCoreLocalFreeRegion other otherNt region, outcome) := by
  have hslot : ∀ nt, (manager.setCoreLocalFreeRegion other otherNt
      region).coreLocalFreeRegion core nt = manager.coreLocalFreeRegion core nt :=
    fun nt => coreLocalFreeRegion_set_other (Ne.symm hne) region
  cases here with
  | testFull nt =>
      simp only [refillStep, Option.some.injEq, Prod.mk.injEq] at hstep
      obtain ⟨rfl, rfl⟩ := hstep
      exact ⟨rfl, by rw [refillStep, hslot]⟩
  | chooseQueue nt =>
      simp only [refillStep, Option.some.injEq, Prod.mk.injEq] at hstep
      obtain ⟨rfl, rfl⟩ := hstep
      refine ⟨rfl, ?_⟩
      simp only [refillStep, hslot, isNt_setCoreLocalFreeRegion]
  | pushFull nt toNt =>
      cases toNt with
      | true =>
          simp only [refillStep] at hstep ⊢
          split at hstep
          · cases hstep
          · rename_i queue hqueue
            cases hstep
            refine ⟨coreLocalFreeRegion_set_other hne _, ?_⟩
            simp only [hslot, RegionManager.capacity_setCoreLocalFreeRegion,
              RegionManager.ntUsedRegions_setCoreLocalFreeRegion, hqueue]
            rw [setCoreLocalFreeRegion_comm hne]
            cases otherNt <;> rfl
      | false =>
          simp only [refillStep] at hstep ⊢
          split at hstep
          · cases hstep
          · rename_i queue hqueue
            cases hstep
            refine ⟨coreLocalFreeRegion_set_other hne _, ?_⟩
            simp only [hslot, RegionManager.capacity_setCoreLocalFreeRegion,
              RegionManager.usedRegions_setCoreLocalFreeRegion, hqueue]
            rw [setCoreLocalFreeRegion_comm hne]
            cases otherNt <;> rfl
  | testSlot nt =>
      simp only [refillStep, Option.some.injEq, Prod.mk.injEq] at hstep
      obtain ⟨rfl, rfl⟩ := hstep
      exact ⟨rfl, by rw [refillStep, hslot]⟩
  | popFree nt =>
      simp only [refillStep, RegionManager.freeRegions_setCoreLocalFreeRegion] at hstep ⊢
      split at hstep
      · cases hstep
        exact ⟨rfl, rfl⟩
      · cases hstep
        refine ⟨coreLocalFreeRegion_set_other hne _, ?_⟩
        rw [setCoreLocalFreeRegion_comm hne]
        cases otherNt <;> rfl
  | setNt success =>
      simp only [refillStep, Option.some.injEq, Prod.mk.injEq] at hstep
      obtain ⟨rfl, rfl⟩ := hstep
      exact ⟨rfl, by rw [refillStep, hslot, setNt_setCoreLocalFreeRegion]⟩
  | _ => cases hstep

theorem finishPick_setSlot {picked : Option Region} (region : Region)
    (hfinish : finishPick picked state = some (after, outcome)) :
    after.manager = state.manager ∧
      finishPick picked (setSlot other otherNt region state) =
        some (setSlot other otherNt region after, outcome) := by
  cases hphase : state.phase with
  | picking numRegionsPerGcRound =>
      cases picked <;>
        · simp only [finishPick, hphase, Option.some.injEq, Prod.mk.injEq] at hfinish
          obtain ⟨rfl, rfl⟩ := hfinish
          simp [finishPick, setSlot, hphase]
  | _ => simp [finishPick, hphase] at hfinish

/-- A pick neither sees nor touches the cores' slots. -/
theorem pickStep_setSlot (region : Region)
    (hstep : pickStep kPickRegionMaxRetryTimes isGcable state here = some (after, outcome)) :
    after.manager.coreLocalFreeRegion other otherNt =
        state.manager.coreLocalFreeRegion other otherNt ∧
      pickStep kPickRegionMaxRetryTimes isGcable (setSlot other otherNt region state) here =
        some (setSlot other otherNt region after, outcome) := by
  have hfinish : ∀ {picked : Option Region} {before : Circulation.State},
      finishPick picked before = some (after, outcome) →
        before.manager.coreLocalFreeRegion other otherNt =
            state.manager.coreLocalFreeRegion other otherNt →
          after.manager.coreLocalFreeRegion other otherNt =
              state.manager.coreLocalFreeRegion other otherNt ∧
            finishPick picked (setSlot other otherNt region before) =
              some (setSlot other otherNt region after, outcome) := by
    intro picked before hfinish hbefore
    obtain ⟨hmanager, hset⟩ := finishPick_setSlot region hfinish
    exact ⟨by rw [hmanager, hbefore], hset⟩
  cases here with
  | ntPopFront retryTimes =>
      simp only [pickStep, setSlot, RegionManager.ntUsedRegions_setCoreLocalFreeRegion]
        at hstep ⊢
      split at hstep <;>
        · cases hstep
          exact ⟨rfl, by cases otherNt <;> rfl⟩
  | ntTest retryTimes picked =>
      simp only [pickStep] at hstep ⊢
      cases isGcable with
      | true => exact hfinish hstep rfl
      | false =>
          cases hstep
          exact ⟨rfl, rfl⟩
  | ntPushBack retryTimes picked =>
      simp only [pickStep, Option.some.injEq, Prod.mk.injEq] at hstep ⊢
      obtain ⟨rfl, rfl⟩ := hstep
      exact ⟨rfl, by cases otherNt <;> rfl, rfl⟩
  | popFront retryTimes =>
      simp only [pickStep, setSlot, RegionManager.usedRegions_setCoreLocalFreeRegion]
        at hstep ⊢
      split at hstep
      · exact hfinish hstep rfl
      · cases hstep
        exact ⟨rfl, by cases otherNt <;> rfl⟩
  | test retryTimes picked =>
      simp only [pickStep] at hstep ⊢
      cases isGcable with
      | true => exact hfinish hstep rfl
      | false =>
          cases hstep
          exact ⟨rfl, rfl⟩
  | pushFront retryTimes picked =>
      simp only [pickStep] at hstep ⊢
      split at hstep
      case isTrue hretry =>
        cases hstep
        refine ⟨rfl, ?_⟩
        rw [if_pos hretry]
        cases otherNt <;> rfl
      case isFalse hlast =>
        have hmoved := hfinish hstep rfl
        refine ⟨hmoved.1, ?_⟩
        rw [if_neg hlast, ← hmoved.2]
        cases otherNt <;> rfl
  | _ => cases hstep

/-- A push neither sees nor touches the cores' slots. -/
theorem pushStep_setSlot (region : Region)
    (hstep : pushStep ops state here = some (after, outcome)) :
    after.manager.coreLocalFreeRegion other otherNt =
        state.manager.coreLocalFreeRegion other otherNt ∧
      pushStep ops (setSlot other otherNt region state) here =
        some (setSlot other otherNt region after, outcome) := by
  cases hphase : state.phase with
  | pushing pushed =>
      cases here with
      | reset =>
          simp only [pushStep, setSlot, hphase] at hstep ⊢
          split at hstep
          · cases hstep
          · cases hstep
            exact ⟨rfl, by cases otherNt <;> simp [RegionManager.setCoreLocalFreeRegion]⟩
      | pushFree picked =>
          simp only [pushStep, setSlot, hphase, RegionManager.capacity_setCoreLocalFreeRegion,
            RegionManager.freeRegions_setCoreLocalFreeRegion] at hstep ⊢
          split at hstep
          · cases hstep
          · cases hstep
            exact ⟨rfl, by cases otherNt <;> rfl⟩
      | _ => cases hstep
  | _ => cases here <;> simp [pushStep, hphase] at hstep

/-- A section of one thread neither sees nor touches the slots of another. -/
theorem step_setSlot {thread : Thread} (hne : some other ≠ thread) (region : Region)
    (hstep : step ops kPickRegionMaxRetryTimes thread here isGcable state =
      some (after, outcome)) :
    after.manager.coreLocalFreeRegion other otherNt =
        state.manager.coreLocalFreeRegion other otherNt ∧
      step ops kPickRegionMaxRetryTimes thread here isGcable
          (setSlot other otherNt region state) =
        some (setSlot other otherNt region after, outcome) := by
  cases thread with
  | some core =>
      have hcore : other ≠ core := fun hsame => hne (congrArg some hsame)
      simp only [step] at hstep ⊢
      split at hstep
      · cases hstep
      · rename_i manager moved hrefill
        cases hstep
        obtain ⟨hslot, hmoved⟩ :=
          refillStep_setCoreLocalFreeRegion hcore hrefill region
        refine ⟨hslot, ?_⟩
        dsimp only [setSlot]
        rw [hmoved]
  | none =>
      cases here with
      | reset =>
          simp only [step] at hstep ⊢
          exact pushStep_setSlot region hstep
      | pushFree picked =>
          simp only [step] at hstep ⊢
          exact pushStep_setSlot region hstep
      | _ =>
          simp only [step] at hstep ⊢
          exact pickStep_setSlot region hstep

/-- A refill and the master's private steps commute. -/
theorem step_of_free_master {request : Request} {middle : Circulation.State}
    (hstep : step ops kPickRegionMaxRetryTimes (some core) here isGcable state =
      some (middle, outcome))
    (hfree : free ops none request middle = some after) :
    ∃ before, free ops none request state = some before ∧
      step ops kPickRegionMaxRetryTimes (some core) here isGcable before =
        some (after, outcome) := by
  simp only [step] at hstep
  split at hstep
  · cases hstep
  rename_i manager moved hrefill
  cases hstep
  have hrest : ∀ fromRegions phase,
      step ops kPickRegionMaxRetryTimes (some core) here isGcable
          ⟨state.manager, fromRegions, phase⟩ =
        some (⟨manager, fromRegions, phase⟩, outcome) := by
    intro fromRegions phase
    simp only [step, hrefill]
  cases request with
  | allocateObject nt objectSize => cases hfree
  | beginPick numRegionsPerGcRound =>
      simp only [free] at hfree ⊢
      split at hfree
      · rename_i hidle
        cases hfree
        exact ⟨_, if_pos hidle, hrest _ _⟩
      · cases hfree
  | endRound =>
      simp only [free] at hfree ⊢
      cases hphase : state.phase with
      | pushing pushed =>
          simp only [hphase] at hfree ⊢
          split at hfree
          · rename_i hend
            cases hfree
            exact ⟨_, if_pos hend, hrest _ _⟩
          · cases hfree
      | _ => simp [hphase] at hfree

theorem mover {thread otherThread : Thread} {request : Request}
    {middle : Circulation.State} (hne : otherThread ≠ thread)
    (hstep : step ops kPickRegionMaxRetryTimes thread here isGcable state =
      some (middle, outcome))
    (hfree : free ops otherThread request middle = some after) :
    ∃ before, free ops otherThread request state = some before ∧
      step ops kPickRegionMaxRetryTimes thread here isGcable before =
        some (after, outcome) := by
  cases otherThread with
  | none =>
      cases thread with
      | none => exact absurd rfl hne
      | some core => exact step_of_free_master hstep hfree
  | some other =>
      cases request with
      | allocateObject nt objectSize =>
          simp only [free] at hfree ⊢
          split at hfree
          · cases hfree
          · rename_i addr region hallocate
            cases hfree
            have hslot : middle.manager.coreLocalFreeRegion other nt =
                state.manager.coreLocalFreeRegion other nt :=
              (step_setSlot hne region hstep).1
            rw [hslot] at hallocate
            rw [hallocate]
            exact ⟨_, rfl, (step_setSlot hne region hstep).2⟩
      | _ => cases hfree

end Movers

/-! ## A section has the effect of its operation -/

section Effect

variable {ops kPickRegionMaxRetryTimes}
variable {base : Circulation.State} {manager next : RegionManager}
variable {core : Fin kNumCPUs} {nt isGcable : Bool} {here : Local}
variable {outcome : Local ⊕ Result}

/-- How far a refill of `base` has come. -/
def Refilling (ops : RegionOps) (core : Fin kNumCPUs) (nt : Bool) (base : RegionManager) :
    Local ⊕ Result → RegionManager → Prop
  | .inl (.testFull nt'), manager => nt' = nt ∧ manager = base
  | .inl (.chooseQueue nt'), manager =>
      nt' = nt ∧ manager = base ∧ (base.coreLocalFreeRegion core nt).isInvalid = false
  | .inl (.pushFull nt' toNt), manager =>
      nt' = nt ∧ manager = base ∧ (base.coreLocalFreeRegion core nt).isInvalid = false ∧
        toNt = ((base.coreLocalFreeRegion core nt).isLocal &&
          base.isNt ops (base.coreLocalFreeRegion core nt))
  | .inl (.testSlot nt'), manager =>
      nt' = nt ∧ base.pushFullRegion ops core nt = some manager
  | .inl (.popFree nt'), manager =>
      nt' = nt ∧ base.pushFullRegion ops core nt = some manager ∧
        (manager.coreLocalFreeRegion core nt).isInvalid = true
  | .inl (.setNt success), manager =>
      base.tryRefillCoreLocalFreeRegion ops core nt =
        some (success, manager.setNt ops (manager.coreLocalFreeRegion core true))
  | .inr (.refilled success), manager =>
      base.tryRefillCoreLocalFreeRegion ops core nt = some (success, manager)
  | _, _ => False

theorem Refilling.step {base : RegionManager}
    (hrefilling : Refilling ops core nt base (.inl here) manager)
    (hstep : refillStep ops core manager here = some (next, outcome)) :
    Refilling ops core nt base outcome next := by
  cases here with
  | testFull nt' =>
      obtain ⟨rfl, rfl⟩ := hrefilling
      simp only [refillStep, Option.some.injEq, Prod.mk.injEq] at hstep
      obtain ⟨rfl, rfl⟩ := hstep
      split
      · rename_i hinvalid
        exact ⟨rfl, by simp [RegionManager.pushFullRegion, hinvalid]⟩
      · rename_i hvalid
        exact ⟨rfl, rfl, by simpa using hvalid⟩
  | chooseQueue nt' =>
      obtain ⟨rfl, rfl, hvalid⟩ := hrefilling
      simp only [refillStep, Option.some.injEq, Prod.mk.injEq] at hstep
      obtain ⟨rfl, rfl⟩ := hstep
      exact ⟨rfl, rfl, hvalid, rfl⟩
  | pushFull nt' toNt =>
      obtain ⟨rfl, rfl, hvalid, htoNt⟩ := hrefilling
      cases toNt with
      | true =>
          simp only [refillStep] at hstep
          split at hstep
          · cases hstep
          · rename_i queue hqueue
            cases hstep
            exact ⟨rfl, by simp [RegionManager.pushFullRegion, hvalid, ← htoNt, hqueue]⟩
      | false =>
          simp only [refillStep] at hstep
          split at hstep
          · cases hstep
          · rename_i queue hqueue
            cases hstep
            exact ⟨rfl, by simp [RegionManager.pushFullRegion, hvalid, ← htoNt, hqueue]⟩
  | testSlot nt' =>
      obtain ⟨rfl, hpush⟩ := hrefilling
      simp only [refillStep, Option.some.injEq, Prod.mk.injEq] at hstep
      obtain ⟨rfl, rfl⟩ := hstep
      split
      · rename_i hinvalid
        exact ⟨rfl, hpush, hinvalid⟩
      · rename_i hvalid
        simp [Refilling, RegionManager.tryRefillCoreLocalFreeRegion, hpush,
          RegionManager.popFreeRegion, hvalid]
  | popFree nt' =>
      obtain ⟨rfl, hpush, hinvalid⟩ := hrefilling
      simp only [refillStep] at hstep
      split at hstep <;>
        · rename_i hfree
          cases hstep
          cases nt' <;>
            simp [Refilling, RegionManager.tryRefillCoreLocalFreeRegion, hpush,
              RegionManager.popFreeRegion, hinvalid, hfree]
  | setNt success =>
      simp only [refillStep, Option.some.injEq, Prod.mk.injEq] at hstep
      obtain ⟨rfl, rfl⟩ := hstep
      exact hrefilling
  | _ => cases hrefilling

/-- Two rotations of a queue without repetitions agree once their fronts do. -/
theorem eq_of_rotate_eq_cons {queue rest : List Region} {region : Region} {count : ℕ}
    (hnodup : (region :: queue).Nodup)
    (hrotate : (region :: queue).rotate count = region :: rest) : rest = queue := by
  have hlt : count % (region :: queue).length < (region :: queue).length :=
    Nat.mod_lt _ (by simp)
  have hfront := List.head?_rotate hlt
  rw [List.rotate_mod, hrotate, List.head?_cons, eq_comm, List.getElem?_eq_some_iff] at hfront
  obtain ⟨hindex, hfront⟩ := hfront
  have hsame : (region :: queue)[count % (region :: queue).length] =
      (region :: queue)[0] := hfront
  have hzero : count % (region :: queue).length = 0 :=
    hnodup.getElem_inj_iff.mp hsame
  rw [← List.rotate_mod, hzero, List.rotate_zero, List.cons.injEq] at hrotate
  exact hrotate.2.symm

/-- The region that some test finds gcable is the one that `nt_retry` finds when
only that region is gcable. -/
theorem ntRetry_eq_of_rotate {queue rest : List Region} {region : Region}
    {count retries : ℕ} (hnodup : queue.Nodup) (hcount : count ≤ retries)
    (hrotate : queue.rotate count = region :: rest) :
    RegionManager.ntRetry (fun other => other = region) retries queue =
      (some region, rest) := by
  induction count generalizing queue retries with
  | zero =>
      rw [List.rotate_zero] at hrotate
      rw [hrotate]
      cases retries <;> simp [RegionManager.ntRetry]
  | succ count ih =>
      cases queue with
      | nil => simp at hrotate
      | cons first queue =>
          by_cases hfirst : first = region
          · subst hfirst
            rw [eq_of_rotate_eq_cons hnodup hrotate]
            cases retries <;> simp [RegionManager.ntRetry]
          · cases retries with
            | zero => omega
            | succ retries =>
                rw [List.rotate_cons_succ] at hrotate
                have hrest := ih ((List.perm_append_singleton first queue).nodup_iff.mpr
                  hnodup) (Nat.le_of_succ_le_succ hcount) hrotate
                simpa [RegionManager.ntRetry, hfirst] using hrest

/-- With nothing gcable, `nt_retry` rotates the queue once for each test. -/
theorem ntRetry_eq_none {queue : List Region} {isGcable : Region → Bool} {retries : ℕ}
    (hnone : ∀ region ∈ queue, isGcable region = false) :
    RegionManager.ntRetry isGcable retries queue = (none, queue.rotate (retries + 1)) := by
  induction retries generalizing queue with
  | zero =>
      cases queue with
      | nil => simp [RegionManager.ntRetry]
      | cons region queue => simp [RegionManager.ntRetry, hnone]
  | succ retries ih =>
      cases queue with
      | nil => simp [RegionManager.ntRetry]
      | cons region queue =>
          have hrotated : ∀ other ∈ queue ++ [region], isGcable other = false := by
            intro other hother
            apply hnone
            simpa [or_comm] using hother
          have hrest := ih hrotated
          simpa [RegionManager.ntRetry, hnone] using hrest

theorem tRetry_eq_some {queue : List Region} {isGcable : Region → Bool} {retries : ℕ}
    {region : Region} (hgcable : isGcable region = true) :
    RegionManager.tRetry isGcable retries (region :: queue) = (some region, queue) := by
  cases retries <;> simp [RegionManager.tRetry, hgcable]

theorem tRetry_eq_none {queue : List Region} {isGcable : Region → Bool} {retries : ℕ}
    (hnone : ∀ region ∈ queue, isGcable region = false) :
    RegionManager.tRetry isGcable retries queue = (none, queue) := by
  induction retries with
  | zero => cases queue <;> simp_all [RegionManager.tRetry]
  | succ retries ih => cases queue <;> simp_all [RegionManager.tRetry]

/-- `base` with other used queues. -/
def withQueues (base : Circulation.State) (ntUsedRegions usedRegions : List Region) :
    Circulation.State :=
  { base with
    manager :=
      { base.manager with
        ntUsedRegions := ntUsedRegions
        usedRegions := usedRegions } }

/-- How far a pick from `base` has come.  After `retryTimes` failed tests the
non-temporal queue has been rotated as often, and no test moves the other one. -/
def Picking (ops : RegionOps) (kPickRegionMaxRetryTimes : ℕ) (base : Circulation.State) :
    Local ⊕ Result → Circulation.State → Prop
  | .inl (.ntPopFront retryTimes), state =>
      retryTimes ≤ kPickRegionMaxRetryTimes + 1 ∧
        state = withQueues base (base.manager.ntUsedRegions.rotate retryTimes)
          base.manager.usedRegions
  | .inl (.ntTest retryTimes region), state | .inl (.ntPushBack retryTimes region), state =>
      retryTimes ≤ kPickRegionMaxRetryTimes + 1 ∧
        ∃ rest, base.manager.ntUsedRegions.rotate retryTimes = region :: rest ∧
          state = withQueues base rest base.manager.usedRegions
  | .inl (.popFront _), state =>
      state = withQueues base
        (base.manager.ntUsedRegions.rotate (kPickRegionMaxRetryTimes + 2))
        base.manager.usedRegions
  | .inl (.test _ region), state | .inl (.pushFront _ region), state =>
      ∃ rest, base.manager.usedRegions = region :: rest ∧
        state = withQueues base
          (base.manager.ntUsedRegions.rotate (kPickRegionMaxRetryTimes + 2)) rest
  | .inr (.popped picked), state =>
      ∃ isGcable,
        (base.manager.popUsedRegion kPickRegionMaxRetryTimes isGcable).1 = picked ∧
          Circulation.step ops kPickRegionMaxRetryTimes base (.pick isGcable) = some state
  | _, _ => False

/-- A section that ends as `pop_used_region` does has the effect of a pick. -/
theorem Picking.of_finish {picked : Option Region} {isGcable : Region → Bool}
    {ntUsedRegions usedRegions : List Region} {state : Circulation.State}
    (hpop : base.manager.popUsedRegion kPickRegionMaxRetryTimes isGcable =
      (picked, (withQueues base ntUsedRegions usedRegions).manager))
    (hfinish : finishPick picked (withQueues base ntUsedRegions usedRegions) =
      some (state, outcome)) :
    Picking ops kPickRegionMaxRetryTimes base outcome state := by
  cases hphase : base.phase with
  | picking numRegionsPerGcRound =>
      cases picked <;>
        · simp only [finishPick, withQueues, hphase, Option.some.injEq,
            Prod.mk.injEq] at hfinish
          obtain ⟨rfl, rfl⟩ := hfinish
          exact ⟨isGcable, by rw [hpop], by simp [Circulation.step, hphase, hpop, withQueues]⟩
  | _ => simp [finishPick, withQueues, hphase] at hfinish

theorem popUsedRegion_of_ntUsed {rest : List Region} {region : Region} {retryTimes : ℕ}
    (hnodup : base.manager.filled.Nodup)
    (hretry : retryTimes ≤ kPickRegionMaxRetryTimes + 1)
    (hrotate : base.manager.ntUsedRegions.rotate retryTimes = region :: rest) :
    base.manager.popUsedRegion kPickRegionMaxRetryTimes (fun other => other = region) =
      (some region, (withQueues base rest base.manager.usedRegions).manager) := by
  have hfound := ntRetry_eq_of_rotate (List.nodup_append.mp hnodup).1 hretry hrotate
  simp only [RegionManager.popUsedRegion, hfound]
  rfl

theorem popUsedRegion_of_used {rest : List Region} {region : Region}
    (hnodup : base.manager.filled.Nodup)
    (hused : base.manager.usedRegions = region :: rest) :
    base.manager.popUsedRegion kPickRegionMaxRetryTimes (fun other => other = region) =
      (some region, (withQueues base
        (base.manager.ntUsedRegions.rotate (kPickRegionMaxRetryTimes + 2)) rest).manager) := by
  have hother : ∀ other ∈ base.manager.ntUsedRegions, decide (other = region) = false := by
    intro other hmem
    have hne := (List.nodup_append.mp hnodup).2.2 other hmem region
      (by rw [hused]; exact List.mem_cons_self)
    simpa using hne
  have hnt : RegionManager.ntRetry (fun other => other = region)
      (kPickRegionMaxRetryTimes + 1) base.manager.ntUsedRegions = _ :=
    ntRetry_eq_none hother
  have ht : RegionManager.tRetry (fun other => other = region)
      (kPickRegionMaxRetryTimes + 1) (region :: rest) = (some region, rest) :=
    tRetry_eq_some (by simp)
  simp only [RegionManager.popUsedRegion, hnt, hused, ht]
  rfl

theorem popUsedRegion_of_none :
    base.manager.popUsedRegion kPickRegionMaxRetryTimes (fun _ => false) =
      (none, (withQueues base
        (base.manager.ntUsedRegions.rotate (kPickRegionMaxRetryTimes + 2))
        base.manager.usedRegions).manager) := by
  have hnt : RegionManager.ntRetry (fun _ => false) (kPickRegionMaxRetryTimes + 1)
      base.manager.ntUsedRegions = _ := ntRetry_eq_none fun _ _ => rfl
  have ht : RegionManager.tRetry (fun _ => false) (kPickRegionMaxRetryTimes + 1)
      base.manager.usedRegions = _ := tRetry_eq_none fun _ _ => rfl
  simp only [RegionManager.popUsedRegion, hnt, ht]
  rfl

theorem Picking.step {state after : Circulation.State}
    (hnodup : base.manager.filled.Nodup)
    (hpicking : Picking ops kPickRegionMaxRetryTimes base (.inl here) state)
    (hstep : pickStep kPickRegionMaxRetryTimes isGcable state here =
      some (after, outcome)) :
    Picking ops kPickRegionMaxRetryTimes base outcome after := by
  cases here with
  | ntPopFront retryTimes =>
      obtain ⟨hretry, rfl⟩ := hpicking
      simp only [pickStep, withQueues] at hstep
      split at hstep
      · rename_i hempty
        cases hstep
        rw [List.rotate_eq_nil_iff] at hempty
        simp [Picking, withQueues, hempty]
      · rename_i region rest hrotate
        cases hstep
        exact ⟨hretry, rest, hrotate, rfl⟩
  | ntTest retryTimes region =>
      cases isGcable with
      | false =>
          cases hstep
          exact hpicking
      | true =>
          obtain ⟨hretry, rest, hrotate, rfl⟩ := hpicking
          exact Picking.of_finish (popUsedRegion_of_ntUsed hnodup hretry hrotate) hstep
  | ntPushBack retryTimes region =>
      obtain ⟨hretry, rest, hrotate, rfl⟩ := hpicking
      simp only [pickStep, Option.some.injEq, Prod.mk.injEq] at hstep
      obtain ⟨rfl, rfl⟩ := hstep
      have hnext : base.manager.ntUsedRegions.rotate (retryTimes + 1) = rest ++ [region] := by
        rw [← List.rotate_rotate, hrotate]
        simp
      split
      · exact ⟨by omega, by rw [hnext]; rfl⟩
      · have hlast : retryTimes = kPickRegionMaxRetryTimes + 1 := by omega
        subst hlast
        simp only [Picking, hnext]
        rfl
  | popFront retryTimes =>
      simp only [Picking] at hpicking
      subst hpicking
      simp only [pickStep, withQueues] at hstep
      split at hstep
      · exact Picking.of_finish popUsedRegion_of_none hstep
      · rename_i region rest hused
        cases hstep
        exact ⟨rest, hused, rfl⟩
  | test retryTimes region =>
      cases isGcable with
      | false =>
          cases hstep
          exact hpicking
      | true =>
          obtain ⟨rest, hused, rfl⟩ := hpicking
          exact Picking.of_finish (popUsedRegion_of_used hnodup hused) hstep
  | pushFront retryTimes region =>
      obtain ⟨rest, hused, rfl⟩ := hpicking
      simp only [pickStep] at hstep
      split at hstep
      · cases hstep
        simp only [Picking, hused]
        rfl
      · refine Picking.of_finish popUsedRegion_of_none ?_
        rw [hused]
        exact hstep
  | _ => cases hpicking

/-- How far a push from `base` has come. -/
def Pushing (ops : RegionOps) (kPickRegionMaxRetryTimes : ℕ) (base : Circulation.State) :
    Local ⊕ Result → Circulation.State → Prop
  | .inl .reset, state => state = base
  | .inl (.pushFree region), state =>
      ∃ pushed, base.phase = .pushing pushed ∧ base.fromRegions[pushed]? = some region ∧
        state = { base with
          manager :=
            { base.manager with
              headers := Function.update base.manager.headers (ops.headerIdx region)
                (ops.resetHeader (base.manager.headers (ops.headerIdx region))) } }
  | .inr .pushed, state =>
      ∃ pushed, base.phase = .pushing pushed ∧ pushed < base.fromRegions.length ∧
        Circulation.step ops kPickRegionMaxRetryTimes base .push = some state
  | _, _ => False

theorem Pushing.step {state after : Circulation.State}
    (hpushing : Pushing ops kPickRegionMaxRetryTimes base (.inl here) state)
    (hstep : pushStep ops state here = some (after, outcome)) :
    Pushing ops kPickRegionMaxRetryTimes base outcome after := by
  cases here with
  | reset =>
      simp only [Pushing] at hpushing
      subst hpushing
      cases hphase : state.phase with
      | pushing pushed =>
          simp only [pushStep, hphase] at hstep
          split at hstep
          · cases hstep
          · rename_i region hregion
            cases hstep
            exact ⟨pushed, hphase, hregion, by rw [← hphase]⟩
      | _ => simp [pushStep, hphase] at hstep
  | pushFree region =>
      obtain ⟨pushed, hphase, hregion, rfl⟩ := hpushing
      simp only [pushStep, hphase] at hstep
      split at hstep
      · cases hstep
      · rename_i freeRegions hqueue
        cases hstep
        refine ⟨pushed, hphase, (List.getElem?_eq_some_iff.mp hregion).1, ?_⟩
        simp [Circulation.step, hphase, hregion, RegionManager.pushFreeRegion, hqueue]
  | _ => cases hpushing

theorem refilling_of_ran {shared : Circulation.State}
    (hran : (sections ops kPickRegionMaxRetryTimes).Ran (some core) (.testFull nt) base
      outcome shared) :
    Refilling ops core nt base.manager outcome shared.manager ∧
      shared = { base with manager := shared.manager } := by
  induction hran with
  | start => exact ⟨⟨rfl, rfl⟩, rfl⟩
  | step hran hstep ih =>
      obtain ⟨hrefilling, hshared⟩ := ih
      simp only [sections, Locking.step] at hstep
      split at hstep
      · cases hstep
      · rename_i hrefill
        cases hstep
        exact ⟨hrefilling.step hrefill, by rw [hshared]⟩

theorem picking_of_ran {shared : Circulation.State} (hnodup : base.manager.filled.Nodup)
    (hran : (sections ops kPickRegionMaxRetryTimes).Ran none (.ntPopFront 0) base
      outcome shared) :
    Picking ops kPickRegionMaxRetryTimes base outcome shared := by
  induction hran with
  | start => exact ⟨Nat.zero_le _, by rw [List.rotate_zero]; rfl⟩
  | step hran hstep ih =>
      rename_i here answer shared next outcome
      simp only [sections] at hstep
      cases here with
      | reset => cases ih
      | pushFree region => cases ih
      | _ =>
          simp only [Locking.step] at hstep
          exact ih.step hnodup hstep

theorem pushing_of_ran {shared : Circulation.State}
    (hran : (sections ops kPickRegionMaxRetryTimes).Ran none .reset base outcome shared) :
    Pushing ops kPickRegionMaxRetryTimes base outcome shared := by
  induction hran with
  | start => exact rfl
  | step hran hstep ih =>
      rename_i here answer shared next outcome
      simp only [sections] at hstep
      cases here with
      | reset =>
          simp only [Locking.step] at hstep
          exact ih.step hstep
      | pushFree region =>
          simp only [Locking.step] at hstep
          exact ih.step hstep
      | _ => cases ih

/-- A section has the effect of its operation.  No pick or push starts on a
core, and no refill in the master. -/
theorem effect_of_ran {thread : Thread} {call : Call} {result : Result}
    {shared : Circulation.State} (hnodup : base.manager.filled.Nodup)
    (hran : (sections ops kPickRegionMaxRetryTimes).Ran thread (enter call) base
      (.inr result) shared) :
    Atomic ops kPickRegionMaxRetryTimes thread call result base shared := by
  have hstuck : (∀ answer state, (sections ops kPickRegionMaxRetryTimes).step thread
      (enter call) answer state = none) → False := by
    intro hstuck
    cases hran.eq_start hstuck
  cases thread with
  | some core =>
      cases call with
      | tryRefill nt =>
          obtain ⟨hrefilling, hshared⟩ := refilling_of_ran hran
          cases result with
          | refilled success =>
              rw [hshared]
              exact .tryRefill hrefilling
          | _ => cases hrefilling
      | _ => exact (hstuck fun _ _ => rfl).elim
  | none =>
      cases call with
      | tryRefill nt => exact (hstuck fun _ _ => rfl).elim
      | popUsedRegion =>
          have hpicking := picking_of_ran hnodup hran
          cases result with
          | popped picked =>
              obtain ⟨isGcable, rfl, hpick⟩ := hpicking
              exact .popUsedRegion hpick
          | _ => cases hpicking
      | pushFreeRegion =>
          have hpushing := pushing_of_ran hran
          cases result with
          | pushed =>
              obtain ⟨pushed, hphase, hpushed, hpush⟩ := hpushing
              exact .pushFreeRegion hphase hpushed hpush
          | _ => cases hpushing

end Effect

/-! ## Every interleaving is a sequence of whole operations -/

section Linearizes

variable {ops kPickRegionMaxRetryTimes}
variable {total : Multiset (BitVec 32 × Option ℕ)} {count : ℕ}
variable {base after : Circulation.State}

/-- What every whole operation and every lock-free step keeps. -/
structure Keep (total : Multiset (BitVec 32 × Option ℕ)) (count : ℕ)
    (state : Circulation.State) : Prop where
  inv : Circulation.Inv total state
  room : Circulation.RoomInv count state

theorem Keep.circulate {action : Circulation.Action} (hkeep : Keep total count base)
    (hstep : Circulation.step ops kPickRegionMaxRetryTimes base action = some after) :
    Keep total count after :=
  ⟨hkeep.inv.step hstep, hkeep.room.step hkeep.inv.cores hstep⟩

/-- A region is in one place only, so the used queues hold it once. -/
theorem Keep.nodup_filled (htotal : total.Nodup) (hkeep : Keep total count base) :
    base.manager.filled.Nodup := by
  have hvalid : ∀ region ∈ base.manager.filled, region.isInvalid = false :=
    fun region hregion => hkeep.room.filled region (List.mem_append_left _ hregion)
  have howned : RegionManager.owned base.manager.filled ≤ total := by
    calc
      RegionManager.owned base.manager.filled ≤
          RegionManager.owned base.manager.filled +
            (RegionManager.owned base.manager.coreLocalFreeRegions +
              RegionManager.owned base.manager.coreLocalFreeNtRegions +
              RegionManager.owned base.manager.freeRegions +
              RegionManager.owned base.fromRegions) := Multiset.le_add_right _ _
      _ = RegionManager.owned base.places := by
        simp only [RegionManager.filled, Circulation.State.places, RegionManager.regions,
          RegionManager.owned_append]
        ac_rfl
      _ = total := hkeep.inv.conserved
  have hnodup := Multiset.nodup_of_le howned htotal
  rw [RegionManager.owned, RegionManager.live, Library.held_of_all_full hvalid] at hnodup
  exact Multiset.coe_nodup.mp (Multiset.Nodup.of_map Region.identity hnodup)

theorem Keep.setManager {manager : RegionManager} (hkeep : Keep total count base)
    (hkeeps : base.manager.Keeps manager)
    (hcapacity : manager.capacity = base.manager.capacity)
    (hfree : manager.freeRegions = base.manager.freeRegions)
    (hfilled : manager.filled = base.manager.filled) :
    Keep total count { base with manager := manager } :=
  ⟨hkeep.inv.setManager hkeeps, hkeep.room.setManager hcapacity hfree hfilled⟩

theorem Keep.free {thread : Thread} {request : Request} (hkeep : Keep total count base)
    (hfree : free ops thread request base = some after) : Keep total count after := by
  cases thread with
  | some core =>
      cases request with
      | allocateObject nt objectSize =>
          simp only [Locking.free] at hfree
          split at hfree
          · cases hfree
          · rename_i addr region hallocate
            cases hfree
            exact hkeep.setManager (hkeep.inv.cores.allocateObject hallocate).1
              (RegionManager.capacity_setCoreLocalFreeRegion _)
              (RegionManager.freeRegions_setCoreLocalFreeRegion _)
              (RegionManager.filled_setCoreLocalFreeRegion _)
      | _ => cases hfree
  | none =>
      cases request with
      | allocateObject nt objectSize => cases hfree
      | beginPick numRegionsPerGcRound =>
          have hstep : Circulation.step ops 0 base (.beginPick numRegionsPerGcRound) =
              some after := hfree
          exact hkeep.circulate hstep
      | endRound =>
          have hstep : Circulation.step ops 0 base .push = some after := by
            cases hphase : base.phase with
            | pushing pushed =>
                simp only [Locking.free, hphase] at hfree
                split at hfree
                · rename_i hend
                  simpa [Circulation.step, hphase, hend] using hfree
                · cases hfree
            | _ => simp [Locking.free, hphase] at hfree
          exact hkeep.circulate hstep

theorem Keep.atomic {thread : Thread} {call : Call} {result : Result}
    (hkeep : Keep total count base)
    (hatomic : Atomic ops kPickRegionMaxRetryTimes thread call result base after) :
    Keep total count after := by
  cases hatomic with
  | tryRefill hrefill =>
      rename_i core nt success manager
      have hstep : Circulation.step ops kPickRegionMaxRetryTimes base (.refill core nt) =
          some { base with manager := manager } := by
        simp [Circulation.step, hrefill]
      exact hkeep.circulate hstep
  | popUsedRegion hpick => exact hkeep.circulate hpick
  | pushFreeRegion _ _ hpush => exact hkeep.circulate hpush

theorem linearizes (htotal : total.Nodup) :
    (sections ops kPickRegionMaxRetryTimes).Linearizes
      (Atomic ops kPickRegionMaxRetryTimes) (Keep total count) where
  mover := mover
  effect hkeep hran := effect_of_ran (hkeep.nodup_filled htotal) hran
  keep := Keep.atomic
  keep_free := Keep.free

end Linearizes

/-! ## From the constructor -/

section Construct

variable {ops : RegionOps} {kPickRegionMaxRetryTimes size localCachePtr : ℕ}
variable {isLocal : Bool} {manager : RegionManager}

/-- The cores and the master on the manager that the constructor builds. -/
def machine (ops : RegionOps) (kPickRegionMaxRetryTimes size : ℕ) (isLocal : Bool)
    (localCachePtr : ℕ) :=
  (sections ops kPickRegionMaxRetryTimes).machine
    (Circulation.machine ops kPickRegionMaxRetryTimes size isLocal localCachePtr).initial

theorem nodup_owned_construct
    (hconstruct : RegionManager.construct size isLocal localCachePtr = some manager)
    (hfits : RegionManager.carvedCount size < 2 ^ 32) :
    (RegionManager.owned manager.regions).Nodup := by
  have hlive := Circulation.live_construct_of_lt hconstruct hfits
  apply Multiset.Nodup.of_map fun identity : BitVec 32 × Option ℕ => identity.1.toNat
  rw [RegionManager.owned, Multiset.map_map]
  have hrange : ((RegionManager.live manager.regions).map fun region =>
      region.regionIdx.toNat).Nodup := hlive ▸ Multiset.nodup_range _
  exact hrange

theorem keep_of_initial {state : Circulation.State}
    (hconstruct : RegionManager.construct size isLocal localCachePtr = some manager)
    (hinitial : (Circulation.machine ops kPickRegionMaxRetryTimes size isLocal
      localCachePtr).initial state) :
    Keep (RegionManager.owned manager.regions) (RegionManager.freeRegionsCount size)
      state := by
  have hreachable : (Circulation.machine ops kPickRegionMaxRetryTimes size isLocal
    localCachePtr).Reachable state := .initial hinitial
  exact ⟨Circulation.inv_of_reachable hconstruct hreachable,
    Circulation.roomInv_of_reachable hconstruct hreachable⟩

variable {state : Library.Sections.State Thread Call Local Result Circulation.State}

/-- The operations under `region_spin_` are atomic: whatever the cores and the
master do between two steps of a section, and whatever each test of `is_gcable`
answers, the regions are at every moment where the lock is free where the
finished refills, picks and pushes put them one after the other, each with the
result it returned. -/
theorem regions_linearizable
    (hconstruct : RegionManager.construct size isLocal localCachePtr = some manager)
    (hfits : RegionManager.carvedCount size < 2 ^ 32)
    (hreachable : (machine ops kPickRegionMaxRetryTimes size isLocal
      localCachePtr).Reachable state) :
    ∃ start base,
      (Circulation.machine ops kPickRegionMaxRetryTimes size isLocal
        localCachePtr).initial start ∧
      (sections ops kPickRegionMaxRetryTimes).Sequential
        (Atomic ops kPickRegionMaxRetryTimes) start state.returned base ∧
      (state.owner = none → state.shared = base) := by
  obtain ⟨start, base, hinitial, hinv⟩ :=
    (linearizes (nodup_owned_construct hconstruct hfits)).exists_inv
      (keep_of_initial hconstruct) hreachable
  exact ⟨start, base, hinitial, hinv.sequential, hinv.idle⟩

/-- Distinct indices keep the cores' regions apart from the master's. -/
theorem conserved_of_indices {state : Circulation.State}
    (hindices : state.indices = Multiset.range (RegionManager.carvedCount size)) :
    Circulation.Conserved size state := by
  have hrange : state.indices.Nodup := hindices ▸ Multiset.nodup_range _
  have hnodup : ((RegionManager.live state.places).map Region.regionIdx).Nodup := by
    apply Multiset.Nodup.of_map BitVec.toNat
    rw [Multiset.map_map]
    exact hrange
  constructor
  case indices => exact hindices
  case disjoint =>
    intro slot hslot hslotValid region hregion hregionValid
    refine Circulation.regionIdx_ne_of_nodup hnodup ?_ hslotValid hregion hregionValid
    rcases List.mem_append.mp hslot with hslot | hslot <;>
      simp [RegionManager.regions, hslot]

/-- No region is lost or duplicated by any interleaving of the sections. -/
theorem conserved_of_unlocked
    (hconstruct : RegionManager.construct size isLocal localCachePtr = some manager)
    (hfits : RegionManager.carvedCount size < 2 ^ 32)
    (hreachable : (machine ops kPickRegionMaxRetryTimes size isLocal
      localCachePtr).Reachable state) (howner : state.owner = none) :
    Circulation.Conserved size state.shared := by
  obtain ⟨start, base, -, hinv⟩ :=
    (linearizes (nodup_owned_construct hconstruct hfits)).exists_inv
      (keep_of_initial hconstruct) hreachable
  apply conserved_of_indices
  rw [hinv.idle howner, Circulation.State.indices_eq, hinv.keep.inv.conserved,
    RegionManager.owned, Multiset.map_map]
  exact Circulation.live_construct_of_lt hconstruct hfits

end Construct

/-! ## A refill and a pick on the shipped test's cache -/

theorem one_lt_kNumCPUs : 1 < kNumCPUs := by decide

def firstCore : Fin kNumCPUs := ⟨0, kNumCPUs_pos⟩

def secondCore : Fin kNumCPUs := ⟨1, one_lt_kNumCPUs⟩

def unused (manager : RegionManager) :
    Library.Sections.State Thread Call Local Result Circulation.State where
  shared := ⟨manager, [], .idle⟩
  owner := none
  positions _ := .outside
  returned := []

/-- The first core refills while the second allocates.  The master then picks a
region that is gcable at the second test only. -/
def refillAndPick : List (Library.Sections.Action Thread Call Bool Request) :=
  [.call (some firstCore) (.tryRefill false), .lock (some firstCore),
    .run (some firstCore) false, .free (some secondCore) (.allocateObject false 64),
    .run (some firstCore) false, .run (some firstCore) false,
    .run (some firstCore) false, .run (some firstCore) false, .unlock (some firstCore),
    .free none (.beginPick 1), .call none .popUsedRegion, .lock none, .run none false,
    .run none false, .run none false, .run none false, .run none false, .run none true,
    .unlock none]

theorem exists_refillAndPick :
    ∃ manager, RegionManager.construct 16384 true 0 = some manager ∧
      ∃ state, (machine RegionOps.bump 10 16384 true 0).run (unused manager)
          refillAndPick = some state ∧
        (state.owner, state.returned.length, state.shared.fromRegions.length) =
          (none, 2, 1) := by
  have hrun : ((RegionManager.construct 16384 true 0).bind fun manager =>
      ((machine RegionOps.bump 10 16384 true 0).run (unused manager) refillAndPick).map
        fun state => (state.owner, state.returned.length,
          state.shared.fromRegions.length)) = some (none, 2, 1) := by
    decide +kernel
  obtain ⟨manager, hconstruct, hmap⟩ := Option.bind_eq_some_iff.mp hrun
  exact ⟨manager, hconstruct, Option.map_eq_some_iff.mp hmap⟩

theorem regions_linearizable_refillAndPick :
    ∃ manager state, RegionManager.construct 16384 true 0 = some manager ∧
      (machine RegionOps.bump 10 16384 true 0).run (unused manager) refillAndPick =
        some state ∧
      ∃ start base,
        (Circulation.machine RegionOps.bump 10 16384 true 0).initial start ∧
        (sections RegionOps.bump 10).Sequential (Atomic RegionOps.bump 10) start
          state.returned base ∧
        (state.owner = none → state.shared = base) := by
  obtain ⟨manager, hconstruct, state, hrun, -⟩ := exists_refillAndPick
  have hreachable : (machine RegionOps.bump 10 16384 true 0).Reachable state :=
    .of_run ⟨⟨hconstruct, rfl, rfl⟩, rfl, fun _ => rfl, rfl⟩ hrun
  exact ⟨manager, state, hconstruct, hrun,
    regions_linearizable hconstruct (by decide +kernel) hreachable⟩

theorem conserved_of_unlocked_refillAndPick :
    ∃ manager state, RegionManager.construct 16384 true 0 = some manager ∧
      (machine RegionOps.bump 10 16384 true 0).run (unused manager) refillAndPick =
        some state ∧
      Circulation.Conserved 16384 state.shared := by
  obtain ⟨manager, hconstruct, state, hrun, hfinal⟩ := exists_refillAndPick
  have hreachable : (machine RegionOps.bump 10 16384 true 0).Reachable state :=
    .of_run ⟨⟨hconstruct, rfl, rfl⟩, rfl, fun _ => rfl, rfl⟩ hrun
  exact ⟨manager, state, hconstruct, hrun,
    conserved_of_unlocked hconstruct (by decide +kernel) hreachable
      (congrArg Prod.fst hfinal)⟩

end DynamicSwap.Locking
