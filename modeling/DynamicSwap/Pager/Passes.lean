import DynamicSwap.Pager.Headroom
import DynamicSwap.Swap.ObjectLocks

/-!
# Passes of the pager end

A pass takes a bounded number of the pager's own steps, whatever the other
threads and the collector do in between, and inside a pass the pager waits for
nothing but an object lock.
-/

namespace DynamicSwap.Pager

open SwapIn (Pc)
open ObjectLocks (callRank rank rank_lt swapIn_enabled)

variable {Meta : Type} {count numGcThreads : ℕ}
variable {pointer : FarMemPtrMeta Meta} {pagerThread : Fin count}

/-- Steps that the pager still takes in its pass: for an item the guard, the
presence test and the thirteen of a `swap_in`. -/
def passRank (pagerThread : Fin count) (state : State Meta count numGcThreads) : ℕ :=
  match state.pager with
  | .test | .lock | .stopped => 0
  | .guard rest => 15 * rest.length + 2
  | .checkPresent _ rest => 15 * rest.length + 16
  | .swapIn _ rest => 15 * rest.length + 2 + callRank (state.far.calls pagerThread)
  | .unlock => 1

/-- A step of the pager inside a pass. -/
def passSteps (state : State Meta count numGcThreads) :
    Action count numGcThreads Meta → ℕ
  | .pager _ =>
      match state.pager with
      | .guard _ | .checkPresent _ _ | .swapIn _ _ | .unlock => 1
      | .test | .lock | .stopped => 0
  | _ => 0

/-- What a pass may take when it begins. -/
def newPass (state : State Meta count numGcThreads) :
    Action count numGcThreads Meta → ℕ
  | .pager _ =>
      match state.pager with
      | .lock => 15 * state.registry.objectRefs.length + 2
      | _ => 0
  | _ => 0

/-- The pager's thread is in a `swap_in` exactly where `dynamic_pager` made the
call. -/
def CallOfPass (pagerThread : Fin count) (state : State Meta count numGcThreads) : Prop :=
  match state.pager with
  | .swapIn ref _ => ∃ pc, state.far.calls pagerThread = some ⟨ref.ptr, pc⟩
  | .test | .lock | .guard _ | .checkPresent _ _ | .unlock | .stopped =>
      state.far.calls pagerThread = none

/-- The pager is before the lock of an object that has an owner. -/
def WaitsForObject (pagerThread : Fin count) (state : State Meta count numGcThreads) :
    Prop :=
  ∃ ref rest key party, state.pager = .swapIn ref rest ∧
    state.far.calls pagerThread = some ⟨ref.ptr, .lock key⟩ ∧
      state.far.owner key = some party

section Steps

variable {state next : State Meta count numGcThreads} {objAddr : ℕ}

theorem passRank_congr (hpager : next.pager = state.pager)
    (hcalls : next.far.calls pagerThread = state.far.calls pagerThread) :
    passRank pagerThread next = passRank pagerThread state := by
  rw [passRank, passRank, hpager, hcalls]

theorem CallOfPass.congr (hcall : CallOfPass pagerThread state)
    (hpager : next.pager = state.pager)
    (hcalls : next.far.calls pagerThread = state.far.calls pagerThread) :
    CallOfPass pagerThread next := by
  rw [CallOfPass, hpager, hcalls]
  exact hcall

theorem CallOfPass.pagerStep (hcall : CallOfPass pagerThread state)
    (hstep : pagerStep pointer pagerThread state objAddr = some next) :
    CallOfPass pagerThread next := by
  cases pagerMove_of_pagerStep hstep with
  | test hpc =>
      simp only [CallOfPass, hpc] at hcall ⊢
      split_ifs <;> exact hcall
  | call ref rest far hpc hbegin =>
      refine ⟨.readId, ?_⟩
      rw [(Protocol.step_call_eq_some hbegin).2]
      exact Protocol.State.calls_setCall_self
  | finish ref rest far hpc hfinish =>
      simp only [CallOfPass]
      rw [Protocol.step_finish_eq_some hfinish]
      exact Protocol.State.calls_setCall_self
  | swapIn ref rest far hpc hswapIn =>
      simp only [CallOfPass, hpc] at hcall ⊢
      obtain ⟨pc, hcall⟩ := hcall
      obtain ⟨call, hother, shared, nextPc, -, rfl⟩ := Protocol.step_swapIn_eq_some hswapIn
      cases Eq.trans (Eq.symm hcall) hother
      exact ⟨nextPc, Protocol.State.calls_setCall_self⟩
  | lock hpc | visited hpc | short _ _ hpc | enough _ _ hpc | present _ _ hpc | unlock hpc =>
      simp only [CallOfPass, hpc] at hcall ⊢
      exact hcall

theorem CallOfPass.step {action : Action count numGcThreads Meta}
    (hcall : CallOfPass pagerThread state)
    (hstep : step pointer pagerThread state action = some next) :
    CallOfPass pagerThread next := by
  by_cases hpager : ∃ objAddr, action = .pager objAddr
  · obtain ⟨objAddr, rfl⟩ := hpager
    exact hcall.pagerStep hstep
  · obtain ⟨hsame, hcalls⟩ := pager_of_step (not_exists.mp hpager) hstep
    exact hcall.congr hsame hcalls

theorem callOfPass_of_reachable (hreachable : (machine pointer pagerThread).Reachable state) :
    CallOfPass pagerThread state := by
  refine hreachable.invariant (CallOfPass pagerThread)
    (fun {state} (hstarted : Started pointer state) => ?_) fun hcall _ hstep => hcall.step hstep
  rw [CallOfPass, hstarted.pager]
  exact hstarted.far.calls pagerThread

theorem pay_pagerStep (hstep : pagerStep pointer pagerThread state objAddr = some next) :
    passRank pagerThread next + passSteps state (.pager objAddr) ≤
      passRank pagerThread state + newPass state (.pager objAddr) := by
  cases pagerMove_of_pagerStep hstep with
  | test hpc =>
      simp only [passRank, passSteps, newPass, hpc]
      split_ifs <;> rfl
  | lock hpc hfree => simp only [passRank, passSteps, newPass, hpc]; omega
  | visited hpc => simp [passRank, passSteps, newPass, hpc]
  | short ref rest hpc hshort => simp [passRank, passSteps, newPass, hpc]
  | enough ref rest hpc henough =>
      simp only [passRank, passSteps, newPass, hpc, List.length_cons]
      omega
  | present ref rest hpc =>
      simp only [passRank, passSteps, newPass, hpc]
      omega
  | call ref rest far hpc hcall =>
      have hrank : callRank (far.calls pagerThread) = 13 := by
        rw [(Protocol.step_call_eq_some hcall).2, Protocol.State.calls_setCall_self]
        rfl
      simp only [passRank, passSteps, newPass, hpc, hrank]
      omega
  | finish ref rest far hpc hfinish =>
      have hrank : 1 ≤ callRank (state.far.calls pagerThread) := by
        simp only [Protocol.step] at hfinish
        split at hfinish
        · rename_i hcall
          rw [hcall]
          exact le_rfl
        · cases hfinish
      simp only [passRank, passSteps, newPass, hpc]
      omega
  | swapIn ref rest far hpc hswapIn =>
      obtain ⟨call, hcall, shared, pc, hmove, rfl⟩ := Protocol.step_swapIn_eq_some hswapIn
      have hbefore : callRank (state.far.calls pagerThread) = rank call.pc := by
        rw [Option.mem_def.mp hcall]
        rfl
      have hafter : callRank (({ state.far with shared := shared }.setCall pagerThread
          (some ⟨call.ptr, pc⟩)).calls pagerThread) = rank pc := by
        rw [Protocol.State.calls_setCall_self]
        rfl
      have hlower := rank_lt hmove
      simp only [passRank, passSteps, newPass, hpc, hbefore, hafter]
      omega
  | unlock hpc => simp [passRank, passSteps, newPass, hpc]

theorem pay_step {action : Action count numGcThreads Meta}
    (hstep : step pointer pagerThread state action = some next) :
    passRank pagerThread next + passSteps state action ≤
      passRank pagerThread state + newPass state action := by
  by_cases hpager : ∃ objAddr, action = .pager objAddr
  · obtain ⟨objAddr, rfl⟩ := hpager
    exact pay_pagerStep hstep
  · obtain ⟨hsame, hcalls⟩ := pager_of_step (not_exists.mp hpager) hstep
    have hfree : passSteps state action = 0 := by
      cases action with
      | pager objAddr => exact absurd ⟨objAddr, rfl⟩ hpager
      | _ => rfl
    rw [passRank_congr hsame hcalls, hfree]
    exact Nat.le_add_right ..

/-- A call of the pager can go on, unless it waits for the object's lock. -/
theorem swapIn_goes_on {ref : ObjRef} {rest : List ObjRef} {pc : Pc Meta}
    (hpc : state.pager = .swapIn ref rest)
    (hcall : state.far.calls pagerThread = some ⟨ref.ptr, pc⟩)
    (hfree : ∀ key, pc = .lock key → state.far.owner key = none) :
    ∃ next, pagerStep pointer pagerThread state 0 = some next := by
  by_cases hreturned : pc = .returned
  · subst hreturned
    have hfinish : Protocol.step pointer state.far (.finish pagerThread) =
        some (state.far.setCall pagerThread none) := by
      simp only [Protocol.step, hcall]
    exact ⟨{ state with
      far := state.far.setCall pagerThread none
      pager := .guard rest }, by simp only [pagerStep, hpc, hfinish]⟩
  · have hsome : (SwapIn.step pointer (fun slot => [slot]) (.thread pagerThread) ref.ptr 0
        state.far.shared pc).isSome := swapIn_enabled hfree hreturned
    obtain ⟨⟨shared, nextPc⟩, hmove⟩ := Option.isSome_iff_exists.mp hsome
    have hswapIn : Protocol.step pointer state.far (.swapIn pagerThread 0) =
        some ({ state.far with shared := shared }.setCall pagerThread
          (some ⟨ref.ptr, nextPc⟩)) := by
      simp only [Protocol.step, hcall, hmove]
    cases hfinish : Protocol.step pointer state.far (.finish pagerThread) with
    | none => exact ⟨_, by rw [pagerStep, hpc]; simp only [hfinish, hswapIn]; rfl⟩
    | some far => exact ⟨_, by rw [pagerStep, hpc]; simp only [hfinish]; rfl⟩

/-- Inside a pass the pager can take its next step, or waits for an object. -/
theorem pass_goes_on (hcall : CallOfPass pagerThread state) (hinside : state.pager.InPass) :
    (∃ objAddr next, pagerStep pointer pagerThread state objAddr = some next) ∨
      WaitsForObject pagerThread state := by
  cases hpc : state.pager with
  | test | lock | stopped =>
      rw [hpc] at hinside
      exact hinside.elim
  | guard rest =>
      left
      cases rest with
      | nil => exact ⟨0, _, by rw [pagerStep, hpc]⟩
      | cons ref rest =>
          by_cases hshort : state.availableMem < state.swapThreshold
          · exact ⟨0, _, by simp only [pagerStep, hpc, if_pos hshort]; rfl⟩
          · exact ⟨0, _, by simp only [pagerStep, hpc, if_neg hshort]; rfl⟩
  | checkPresent ref rest =>
      left
      by_cases hpresent : isPresent pointer state.far ref.ptr = true
      · exact ⟨0, _, by simp only [pagerStep, hpc, if_pos hpresent]; rfl⟩
      · simp only [CallOfPass, hpc] at hcall
        have habsent : pointer.isPresent (state.far.word ref.ptr) = false := by
          simpa [isPresent] using hpresent
        have hbegin : Protocol.step pointer state.far (.call pagerThread ref.ptr) =
            some (state.far.setCall pagerThread (some ⟨ref.ptr, .readId⟩)) := by
          simp [Protocol.step, hcall, habsent]
        exact ⟨0, _, by simp only [pagerStep, hpc, if_neg hpresent, hbegin]; rfl⟩
  | swapIn ref rest =>
      simp only [CallOfPass, hpc] at hcall
      obtain ⟨pc, hcall⟩ := hcall
      by_cases hwaits : ∃ key party, pc = .lock key ∧ state.far.owner key = some party
      · obtain ⟨key, party, rfl, howner⟩ := hwaits
        exact .inr ⟨ref, rest, key, party, hpc, hcall, howner⟩
      · refine .inl ⟨0, swapIn_goes_on hpc hcall fun key hlock => ?_⟩
        by_contra howned
        obtain ⟨party, howner⟩ := Option.ne_none_iff_exists'.mp howned
        exact hwaits ⟨key, party, hlock, howner⟩
  | unlock =>
      left
      exact ⟨0, _, by rw [pagerStep, hpc]⟩

end Steps

/-- In every run the pager takes at most fifteen steps for each registered item
and two more in each pass, and inside a pass its next step is enabled unless it
waits for the lock of an object. -/
theorem passes_end {state final : State Meta count numGcThreads}
    {actions : List (Action count numGcThreads Meta)}
    (hinitial : (machine pointer pagerThread).initial state)
    (hrun : (machine pointer pagerThread).run state actions = some final) :
    (machine pointer pagerThread).runTotal passSteps state actions ≤
        (machine pointer pagerThread).runTotal newPass state actions ∧
      (final.pager.InPass →
        (∃ objAddr next, pagerStep pointer pagerThread final objAddr = some next) ∨
          WaitsForObject pagerThread final) := by
  have hcall := callOfPass_of_reachable (Library.Machine.Reachable.of_run hinitial hrun)
  refine ⟨?_, pass_goes_on hcall⟩
  have htotal := Library.Machine.runTotal_le (fun _ => True) (passRank pagerThread)
    passSteps newPass (fun _ _ => trivial) (fun _ hstep => pay_step hstep) trivial hrun
  have hstart : passRank pagerThread state = 0 := by
    simp only [passRank, hinitial.pager]
  omega

/-- A scan, then a pass in the middle of its first `swap_in`. -/
def openPassRun : List (Action 2 1 ℕ) :=
  List.replicate 7 .memory ++ List.replicate 8 (.pager 4096)

theorem exists_openPassRun :
    ∃ final, (machine (FarMemPtrMeta.pointerHpp 16) 1).run smallCache openPassRun =
        some final ∧ final.pager = .swapIn ⟨8, 950⟩ [⟨16, 950⟩] :=
  ⟨_, rfl, rfl⟩

theorem passes_end_openPassRun :
    ∃ final, (machine (FarMemPtrMeta.pointerHpp 16) 1).run smallCache openPassRun =
        some final ∧
      (machine (FarMemPtrMeta.pointerHpp 16) 1).runTotal passSteps smallCache openPassRun ≤
        (machine (FarMemPtrMeta.pointerHpp 16) 1).runTotal newPass smallCache openPassRun ∧
      ((∃ objAddr next,
          pagerStep (FarMemPtrMeta.pointerHpp 16) 1 final objAddr = some next) ∨
        WaitsForObject 1 final) := by
  obtain ⟨final, hrun, hpager⟩ := exists_openPassRun
  obtain ⟨htotal, hgoes⟩ := passes_end started_smallCache hrun
  exact ⟨final, hrun, htotal, hgoes (by rw [hpager]; trivial)⟩

end DynamicSwap.Pager
