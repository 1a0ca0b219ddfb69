import DynamicSwap.Library.Monitor

/-!
# Waiting for the collector

A mutator that finds no free region sleeps in `mutator_wait_for_gc_cache` until
`almost_empty` is false.  The active master of `gc_cache` clears that flag and
wakes the sleepers at the end of a round, under `gc_lock_`.  Code outside the
repository sets the flag without the lock.  No wakeup is lost, and a master
that finds enough free regions leaves no sleeper behind.
-/

namespace DynamicSwap.Waiting

open Library (Guards)

/-- The tests of the number of free regions that `manager.hpp` declares. -/
structure Gauge where
  isFreeCacheLow : ℕ → Bool
  isFreeCacheHigh : ℕ → Bool
  isFreeCacheAlmostEmpty : ℕ → Bool
  almostEmpty_of_le : ∀ {fewer more : ℕ}, fewer ≤ more →
    isFreeCacheAlmostEmpty more = true → isFreeCacheAlmostEmpty fewer = true
  not_almostEmpty_of_high : ∀ {count : ℕ},
    isFreeCacheHigh count = true → isFreeCacheAlmostEmpty count = false

/-- Position of a thread: `lock` to `unlock` are in `mutator_wait_for_gc_cache`,
the others in `gc_cache`.  `asleep` is inside `Wait`, `woken` past the wakeup
and not yet holding the lock again. -/
inductive Pc
  | outside
  | lock
  | testAlmostEmpty
  | testDerefScope
  | asleep
  | woken
  | retest
  | unlock
  | checkLow
  | tryActivate
  | checkHigh
  | pickFromRegions
  | collect (picked : ℕ)
  | push (remaining : ℕ)
  | gcLock
  | checkAlmostEmpty
  | clearAlmostEmpty
  | signalAll
  | gcUnlock
  | cleanup
  deriving DecidableEq

/-- `exited` once a thread has called `exit(-ENOSPC)`. -/
structure State (threads : ℕ) where
  gcMasterActive : Bool
  almostEmpty : Bool
  gcLock : Option (Fin threads)
  freeRegions : ℕ
  exited : Bool
  pcs : Fin threads → Pc

/-- `run` is the next step of a thread, with the answer of `is_in_deref_scope`
and the number of picked regions where it needs one.  `allocate` takes a region
off the free list and `assign` is a write to `almost_empty` outside the
repository. -/
inductive Action (threads : ℕ)
  | waitForGcCache (thread : Fin threads)
  | gcCache (thread : Fin threads)
  | run (thread : Fin threads) (isInDerefScope : Bool) (picked : ℕ)
  | allocate
  | assign (almostEmpty : Bool)
  deriving DecidableEq

variable {threads : ℕ}

namespace State

def moveTo (state : State threads) (thread : Fin threads) (pc : Pc) : State threads :=
  { state with pcs := Function.update state.pcs thread pc }

/-- `gc_lock_.Lock()`, blocked while another thread holds it. -/
def acquire (state : State threads) (thread : Fin threads) (pc : Pc) :
    Option (State threads) :=
  if state.gcLock = none then
    some ({ state with gcLock := some thread }.moveTo thread pc)
  else none

def release (state : State threads) (thread : Fin threads) (pc : Pc) : State threads :=
  { state with gcLock := none }.moveTo thread pc

end State

/-- What `SignalAll` does to a thread. -/
def wake : Pc → Pc
  | .asleep => .woken
  | pc => pc

variable (gauge : Gauge)

/-- The next step of a thread inside one of the two functions. -/
def advance (state : State threads) (thread : Fin threads) (isInDerefScope : Bool)
    (picked : ℕ) : Option (State threads) :=
  match state.pcs thread with
  | .outside => none
  | .lock => state.acquire thread .testAlmostEmpty
  | .testAlmostEmpty =>
      some (state.moveTo thread (if state.almostEmpty then .testDerefScope else .unlock))
  | .testDerefScope =>
      some (if isInDerefScope then { state with exited := true }
        else state.release thread .asleep)
  | .asleep => none
  | .woken => state.acquire thread .retest
  | .retest =>
      some (if state.almostEmpty then state.release thread .asleep
        else state.moveTo thread .unlock)
  | .unlock => some (state.release thread .outside)
  | .checkLow =>
      some (state.moveTo thread
        (if gauge.isFreeCacheLow state.freeRegions then .tryActivate else .outside))
  | .tryActivate =>
      some (if state.gcMasterActive then state.moveTo thread .outside
        else { state with gcMasterActive := true }.moveTo thread .checkHigh)
  | .checkHigh =>
      some (state.moveTo thread
        (if gauge.isFreeCacheHigh state.freeRegions then .cleanup else .pickFromRegions))
  | .pickFromRegions =>
      some (state.moveTo thread (if picked = 0 then .checkHigh else .collect picked))
  | .collect picked => some (state.moveTo thread (.push picked))
  | .push 0 => some (state.moveTo thread .gcLock)
  | .push (remaining + 1) =>
      some ({ state with freeRegions := state.freeRegions + 1 }.moveTo thread
        (.push remaining))
  | .gcLock => state.acquire thread .checkAlmostEmpty
  | .checkAlmostEmpty =>
      some (state.moveTo thread
        (if gauge.isFreeCacheAlmostEmpty state.freeRegions then .gcUnlock
          else .clearAlmostEmpty))
  | .clearAlmostEmpty =>
      some ({ state with almostEmpty := false }.moveTo thread .signalAll)
  | .signalAll =>
      some ({ state with pcs := fun other => wake (state.pcs other) }.moveTo thread
        .gcUnlock)
  | .gcUnlock => some (state.release thread .checkHigh)
  | .cleanup => some ({ state with gcMasterActive := false }.moveTo thread .outside)

/-- A step of the process, as long as it has not exited. -/
def step (state : State threads) (action : Action threads) : Option (State threads) :=
  if state.exited then none
  else
    match action with
    | .waitForGcCache thread =>
        if state.pcs thread = .outside then some (state.moveTo thread .lock) else none
    | .gcCache thread =>
        if state.pcs thread = .outside then some (state.moveTo thread .checkLow) else none
    | .run thread isInDerefScope picked =>
        advance gauge state thread isInDerefScope picked
    | .allocate =>
        if state.freeRegions = 0 then none
        else some { state with freeRegions := state.freeRegions - 1 }
    | .assign almostEmpty => some { state with almostEmpty := almostEmpty }

/-- Any number of free regions, and no thread in either function. -/
def machine (threads : ℕ) : Library.Machine (State threads) (Action threads) where
  initial state :=
    state.gcMasterActive = false ∧ state.almostEmpty = false ∧ state.gcLock = none ∧
      state.exited = false ∧ ∀ thread, state.pcs thread = .outside
  step := step gauge

/-- Positions under `gc_lock_`. -/
def Critical : Pc → Prop
  | .testAlmostEmpty | .testDerefScope | .retest | .unlock | .checkAlmostEmpty
  | .clearAlmostEmpty | .signalAll | .gcUnlock => True
  | _ => False

/-- Positions of the master that holds `gc_master_active`. -/
def Collecting : Pc → Prop
  | .checkHigh | .pickFromRegions | .collect _ | .push _ | .gcLock | .checkAlmostEmpty
  | .clearAlmostEmpty | .signalAll | .gcUnlock | .cleanup => True
  | _ => False

/-- Positions in phase 5 before `almost_empty` has been decided. -/
def Refilling : Pc → Prop
  | .push _ | .gcLock | .checkAlmostEmpty | .clearAlmostEmpty => True
  | _ => False

/-! ## What a step can do -/

section Turn

/-- Steps that only move the thread. -/
inductive Move (state : State threads) : Pc → Pc → Prop
  | mustWait (hflag : state.almostEmpty = true) :
      Move state .testAlmostEmpty .testDerefScope
  | mayReturn (hflag : state.almostEmpty = false) : Move state .testAlmostEmpty .unlock
  | stopWaiting (hflag : state.almostEmpty = false) : Move state .retest .unlock
  | low : Move state .checkLow .tryActivate
  | notLow : Move state .checkLow .outside
  | alreadyActive : Move state .tryActivate .outside
  | high (hhigh : gauge.isFreeCacheHigh state.freeRegions = true) :
      Move state .checkHigh .cleanup
  | notHigh : Move state .checkHigh .pickFromRegions
  | noFromRegions : Move state .pickFromRegions .checkHigh
  | picked (count : ℕ) : Move state .pickFromRegions (.collect count)
  | collected (count : ℕ) : Move state (.collect count) (.push count)
  | pushedAll : Move state (.push 0) .gcLock
  | stillAlmostEmpty
      (halmost : gauge.isFreeCacheAlmostEmpty state.freeRegions = true) :
      Move state .checkAlmostEmpty .gcUnlock
  | enough : Move state .checkAlmostEmpty .clearAlmostEmpty

/-- Steps that take `gc_lock_`. -/
inductive Entry : Pc → Pc → Prop
  | mutator : Entry .lock .testAlmostEmpty
  | woken : Entry .woken .retest
  | master : Entry .gcLock .checkAlmostEmpty

/-- Steps that give `gc_lock_` back. -/
inductive Exit (state : State threads) : Pc → Pc → Prop
  | wait : Exit state .testDerefScope .asleep
  | waitAgain (hflag : state.almostEmpty = true) : Exit state .retest .asleep
  | mutator : Exit state .unlock .outside
  | master : Exit state .gcUnlock .checkHigh

/-- Everything that a thread inside one of the two functions can do next. -/
inductive Turn (state : State threads) (thread : Fin threads) : State threads → Prop
  | move {pc : Pc} (hmove : Move gauge state (state.pcs thread) pc) :
      Turn state thread (state.moveTo thread pc)
  | acquire {pc : Pc} (hfree : state.gcLock = none)
      (hentry : Entry (state.pcs thread) pc) :
      Turn state thread ({ state with gcLock := some thread }.moveTo thread pc)
  | release {pc : Pc} (hexit : Exit state (state.pcs thread) pc) :
      Turn state thread (state.release thread pc)
  | exit (hpc : state.pcs thread = .testDerefScope) :
      Turn state thread { state with exited := true }
  | activate (hpc : state.pcs thread = .tryActivate)
      (hinactive : state.gcMasterActive = false) :
      Turn state thread ({ state with gcMasterActive := true }.moveTo thread .checkHigh)
  | push {remaining : ℕ} (hpc : state.pcs thread = .push (remaining + 1)) :
      Turn state thread
        ({ state with freeRegions := state.freeRegions + 1 }.moveTo thread
          (.push remaining))
  | clear (hpc : state.pcs thread = .clearAlmostEmpty) :
      Turn state thread ({ state with almostEmpty := false }.moveTo thread .signalAll)
  | signal (hpc : state.pcs thread = .signalAll) :
      Turn state thread
        ({ state with pcs := fun other => wake (state.pcs other) }.moveTo thread
          .gcUnlock)
  | deactivate (hpc : state.pcs thread = .cleanup) :
      Turn state thread ({ state with gcMasterActive := false }.moveTo thread .outside)

variable {gauge} {state next : State threads} {thread : Fin threads}
variable {isInDerefScope : Bool} {picked : ℕ}

theorem Turn.of_acquire {pc : Pc} (hentry : Entry (state.pcs thread) pc)
    (hacquire : state.acquire thread pc = some next) : Turn gauge state thread next := by
  rw [State.acquire, Option.ite_none_right_eq_some, Option.some.injEq] at hacquire
  exact hacquire.2 ▸ .acquire hacquire.1 hentry

theorem Turn.of_move {pc : Pc} (hpc : state.pcs thread = pc) {target : Pc}
    (hmove : Move gauge state pc target) :
    Turn gauge state thread (state.moveTo thread target) :=
  .move (hpc ▸ hmove)

theorem Turn.of_exit {pc : Pc} (hpc : state.pcs thread = pc) {target : Pc}
    (hexit : Exit state pc target) :
    Turn gauge state thread (state.release thread target) :=
  .release (hpc ▸ hexit)

theorem turn_of_advance
    (hadvance : advance gauge state thread isInDerefScope picked = some next) :
    Turn gauge state thread next := by
  rw [advance] at hadvance
  cases hpc : state.pcs thread with
  | outside => simp [hpc] at hadvance
  | asleep => simp [hpc] at hadvance
  | lock =>
      simp only [hpc] at hadvance
      exact .of_acquire (hpc ▸ .mutator) hadvance
  | woken =>
      simp only [hpc] at hadvance
      exact .of_acquire (hpc ▸ .woken) hadvance
  | gcLock =>
      simp only [hpc] at hadvance
      exact .of_acquire (hpc ▸ .master) hadvance
  | testAlmostEmpty =>
      simp only [hpc, Option.some.injEq] at hadvance
      subst hadvance
      cases hflag : state.almostEmpty with
      | true => exact .of_move hpc (.mustWait hflag)
      | false => exact .of_move hpc (.mayReturn hflag)
  | testDerefScope =>
      simp only [hpc, Option.some.injEq] at hadvance
      subst hadvance
      cases isInDerefScope with
      | true => exact .exit hpc
      | false => exact .of_exit hpc .wait
  | retest =>
      simp only [hpc, Option.some.injEq] at hadvance
      subst hadvance
      cases hflag : state.almostEmpty with
      | true => exact .of_exit hpc (.waitAgain hflag)
      | false => exact .of_move hpc (.stopWaiting hflag)
  | unlock =>
      simp only [hpc, Option.some.injEq] at hadvance
      exact hadvance ▸ .of_exit hpc .mutator
  | gcUnlock =>
      simp only [hpc, Option.some.injEq] at hadvance
      exact hadvance ▸ .of_exit hpc .master
  | checkLow =>
      simp only [hpc, Option.some.injEq] at hadvance
      subst hadvance
      split
      · exact .of_move hpc .low
      · exact .of_move hpc .notLow
  | tryActivate =>
      simp only [hpc, Option.some.injEq] at hadvance
      subst hadvance
      cases hactive : state.gcMasterActive with
      | true => exact .of_move hpc .alreadyActive
      | false => exact .activate hpc hactive
  | checkHigh =>
      simp only [hpc, Option.some.injEq] at hadvance
      subst hadvance
      split
      case isTrue hhigh => exact .of_move hpc (.high hhigh)
      case isFalse => exact .of_move hpc .notHigh
  | pickFromRegions =>
      simp only [hpc, Option.some.injEq] at hadvance
      subst hadvance
      split
      · exact .of_move hpc .noFromRegions
      · exact .of_move hpc (.picked picked)
  | collect count =>
      simp only [hpc, Option.some.injEq] at hadvance
      exact hadvance ▸ .of_move hpc (.collected count)
  | push remaining =>
      cases remaining with
      | zero =>
          simp only [hpc, Option.some.injEq] at hadvance
          exact hadvance ▸ .of_move hpc .pushedAll
      | succ remaining =>
          simp only [hpc, Option.some.injEq] at hadvance
          exact hadvance ▸ .push hpc
  | checkAlmostEmpty =>
      simp only [hpc, Option.some.injEq] at hadvance
      subst hadvance
      split
      case isTrue halmost => exact .of_move hpc (.stillAlmostEmpty halmost)
      case isFalse => exact .of_move hpc .enough
  | clearAlmostEmpty =>
      simp only [hpc, Option.some.injEq] at hadvance
      exact hadvance ▸ .clear hpc
  | signalAll =>
      simp only [hpc, Option.some.injEq] at hadvance
      exact hadvance ▸ .signal hpc
  | cleanup =>
      simp only [hpc, Option.some.injEq] at hadvance
      exact hadvance ▸ .deactivate hpc

/-- Everything that a step of a live process can do. -/
inductive Transition (gauge : Gauge) (state : State threads) :
    Action threads → State threads → Prop
  | waitForGcCache {thread : Fin threads} (hpc : state.pcs thread = .outside) :
      Transition gauge state (.waitForGcCache thread) (state.moveTo thread .lock)
  | gcCache {thread : Fin threads} (hpc : state.pcs thread = .outside) :
      Transition gauge state (.gcCache thread) (state.moveTo thread .checkLow)
  | run {thread : Fin threads} {isInDerefScope : Bool} {picked : ℕ} {next : State threads}
      (hturn : Turn gauge state thread next) :
      Transition gauge state (.run thread isInDerefScope picked) next
  | allocate :
      Transition gauge state .allocate
        { state with freeRegions := state.freeRegions - 1 }
  | assign (almostEmpty : Bool) :
      Transition gauge state (.assign almostEmpty) { state with almostEmpty := almostEmpty }

theorem transition_of_step {action : Action threads}
    (hstep : step gauge state action = some next) :
    Transition gauge state action next := by
  simp only [step, Option.ite_none_left_eq_some] at hstep
  replace hstep := hstep.2
  cases action with
  | waitForGcCache thread =>
      rw [Option.ite_none_right_eq_some, Option.some.injEq] at hstep
      exact hstep.2 ▸ .waitForGcCache hstep.1
  | gcCache thread =>
      rw [Option.ite_none_right_eq_some, Option.some.injEq] at hstep
      exact hstep.2 ▸ .gcCache hstep.1
  | run thread isInDerefScope picked => exact .run (turn_of_advance hstep)
  | allocate =>
      rw [Option.ite_none_left_eq_some, Option.some.injEq] at hstep
      exact hstep.2 ▸ .allocate
  | assign almostEmpty =>
      rw [Option.some.injEq] at hstep
      exact hstep ▸ .assign almostEmpty

end Turn

/-! ## Invariants -/

/-- What holds in every run in which no code outside the repository clears
`almost_empty`. -/
structure Inv (state : State threads) : Prop where
  gcLock : Guards Critical state.gcLock state.pcs
  master : ∃ master, Guards Collecting master state.pcs ∧
    state.gcMasterActive = master.isSome
  decided : ∀ thread, state.pcs thread = .testDerefScope → state.almostEmpty = true
  asleep : ∀ thread, state.pcs thread = .asleep →
    state.almostEmpty = true ∨ ∃ master, state.pcs master = .signalAll

/-- The flag is set only while the free cache is almost empty, except where a
master has pushed regions and not looked at the flag yet. -/
def Timely (gauge : Gauge) (state : State threads) : Prop :=
  state.almostEmpty = true →
    gauge.isFreeCacheAlmostEmpty state.freeRegions = true ∨
      ∃ master, Refilling (state.pcs master)

section Step

variable {gauge : Gauge} {state next : State threads} {thread : Fin threads} {pc target : Pc}

theorem critical_wake (pc : Pc) : Critical (wake pc) ↔ Critical pc := by
  cases pc <;> rfl

theorem collecting_wake (pc : Pc) : Collecting (wake pc) ↔ Collecting pc := by
  cases pc <;> rfl

theorem refilling_wake (pc : Pc) : Refilling (wake pc) ↔ Refilling pc := by
  cases pc <;> rfl

theorem wake_ne_asleep (pc : Pc) : wake pc ≠ .asleep := by
  cases pc <;> simp [wake]

theorem wake_eq_testDerefScope (hpc : wake pc = .testDerefScope) :
    pc = .testDerefScope := by
  cases pc <;> simp_all [wake]

theorem Move.critical (hmove : Move gauge state pc target) :
    Critical target ↔ Critical pc := by
  cases hmove <;> simp [Critical]

theorem Move.collecting (hmove : Move gauge state pc target) :
    Collecting target ↔ Collecting pc := by
  cases hmove <;> simp [Collecting]

theorem Entry.collecting (hentry : Entry pc target) : Collecting target ↔ Collecting pc := by
  cases hentry <;> simp [Collecting]

theorem Entry.critical (hentry : Entry pc target) : Critical target := by
  cases hentry <;> trivial

theorem Exit.critical (hexit : Exit state pc target) : Critical pc ∧ ¬Critical target := by
  cases hexit <;> simp [Critical]

theorem Entry.ne (hentry : Entry pc target) :
    pc ≠ .signalAll ∧ target ≠ .testDerefScope ∧ target ≠ .asleep := by
  cases hentry <;> simp

theorem Exit.ne (hexit : Exit state pc target) :
    pc ≠ .signalAll ∧ target ≠ .testDerefScope := by
  cases hexit <;> simp

theorem Exit.collecting (hexit : Exit state pc target) :
    Collecting target ↔ Collecting pc := by
  cases hexit <;> simp [Collecting]

/-- Some thread keeps a position that the moving thread was not at. -/
theorem exists_update (predicate : Pc → Prop) (hold : ¬predicate (state.pcs thread))
    (hexists : ∃ master, predicate (state.pcs master)) :
    ∃ master, predicate (Function.update state.pcs thread pc master) := by
  obtain ⟨master, hmaster⟩ := hexists
  refine ⟨master, ?_⟩
  rwa [Function.update_of_ne]
  rintro rfl
  exact hold hmaster

theorem gcLock_of_turn (hguards : Guards Critical state.gcLock state.pcs)
    (hturn : Turn gauge state thread next) : Guards Critical next.gcLock next.pcs := by
  cases hturn with
  | move hmove => exact hguards.move hmove.critical
  | acquire hfree hentry =>
      rw [hfree] at hguards
      exact hguards.acquire hentry.critical
  | release hexit => exact hguards.release hexit.critical.1 hexit.critical.2
  | exit hpc => exact hguards
  | activate hpc _ => exact hguards.move (by simp [hpc, Critical])
  | push hpc => exact hguards.move (by simp [hpc, Critical])
  | clear hpc => exact hguards.move (by simp [hpc, Critical])
  | signal hpc => exact (hguards.map critical_wake).move (by simp [hpc, wake, Critical])
  | deactivate hpc => exact hguards.move (by simp [hpc, Critical])

theorem master_of_turn
    (hmaster : ∃ master, Guards Collecting master state.pcs ∧
      state.gcMasterActive = master.isSome)
    (hturn : Turn gauge state thread next) :
    ∃ master, Guards Collecting master next.pcs ∧ next.gcMasterActive = master.isSome := by
  obtain ⟨master, hguards, hactive⟩ := hmaster
  cases hturn with
  | move hmove => exact ⟨master, hguards.move hmove.collecting, hactive⟩
  | acquire _ hentry => exact ⟨master, hguards.move hentry.collecting, hactive⟩
  | release hexit => exact ⟨master, hguards.move hexit.collecting, hactive⟩
  | exit hpc => exact ⟨master, hguards, hactive⟩
  | activate hpc hinactive =>
      rw [hinactive] at hactive
      cases master with
      | none => exact ⟨some thread, hguards.acquire (by trivial), rfl⟩
      | some master => simp at hactive
  | push hpc => exact ⟨master, hguards.move (by simp [hpc, Collecting]), hactive⟩
  | clear hpc => exact ⟨master, hguards.move (by simp [hpc, Collecting]), hactive⟩
  | signal hpc =>
      exact ⟨master, (hguards.map collecting_wake).move (by simp [hpc, wake, Collecting]),
        hactive⟩
  | deactivate hpc =>
      exact ⟨none, hguards.release (by simp [hpc, Collecting]) (by simp [Collecting]), rfl⟩

/-- Only the owner of `gc_lock_` clears the flag, so a mutator that has seen it
set under the lock still finds it set. -/
theorem decided_of_turn (hinv : Inv state) (hturn : Turn gauge state thread next) :
    ∀ other, next.pcs other = .testDerefScope → next.almostEmpty = true := by
  have hkeep : ∀ {pc : Pc}, pc ≠ .testDerefScope → ∀ other,
      Function.update state.pcs thread pc other = .testDerefScope →
        state.almostEmpty = true := by
    intro pc hpc other hother
    rw [Function.update_apply] at hother
    split at hother
    · exact absurd hother hpc
    · exact hinv.decided other hother
  cases hturn with
  | move hmove =>
      intro other hother
      generalize hfrom : state.pcs thread = pc at hmove
      cases hmove with
      | mustWait hflag => exact hflag
      | _ => exact hkeep (by simp) other hother
  | acquire _ hentry => exact hkeep hentry.ne.2.1
  | release hexit => exact hkeep hexit.ne.2
  | exit hpc => exact hinv.decided
  | activate hpc _ => exact hkeep (by simp)
  | push hpc => exact hkeep (by simp)
  | clear hpc =>
      intro other hother
      dsimp only [State.moveTo] at hother
      rw [Function.update_apply] at hother
      split at hother
      · cases hother
      · rename_i hne
        have hcritical : Critical (state.pcs other) := by
          rw [hother]
          trivial
        exact absurd (hinv.gcLock.eq hcritical (by simp [hpc, Critical])) hne
  | signal hpc =>
      intro other hother
      dsimp only [State.moveTo] at hother
      rw [Function.update_apply] at hother
      split at hother
      · cases hother
      · exact hinv.decided other (wake_eq_testDerefScope hother)
  | deactivate hpc => exact hkeep (by simp)

/-- A mutator goes to sleep only where the flag is set, and a master that clears
it goes on to `SignalAll`. -/
theorem asleep_of_turn (hinv : Inv state) (hturn : Turn gauge state thread next) :
    ∀ other, next.pcs other = .asleep →
      next.almostEmpty = true ∨ ∃ master, next.pcs master = .signalAll := by
  have hkeep : ∀ {pc : Pc}, pc ≠ .asleep → state.pcs thread ≠ .signalAll → ∀ other,
      Function.update state.pcs thread pc other = .asleep →
        state.almostEmpty = true ∨
          ∃ master, Function.update state.pcs thread pc master = .signalAll := by
    intro pc hpc hthread other hother
    rw [Function.update_apply] at hother
    split at hother
    · exact absurd hother hpc
    · rcases hinv.asleep other hother with hflag | hsignal
      · exact Or.inl hflag
      · exact Or.inr (exists_update (· = .signalAll) hthread hsignal)
  cases hturn with
  | move hmove =>
      generalize hfrom : state.pcs thread = pc at hmove
      cases hmove <;> exact hkeep (by simp) (by simp [hfrom])
  | acquire _ hentry => exact hkeep hentry.ne.2.2 hentry.ne.1
  | release hexit =>
      generalize hfrom : state.pcs thread = pc at hexit
      cases hexit with
      | wait => exact fun _ _ => Or.inl (hinv.decided thread hfrom)
      | waitAgain hflag => exact fun _ _ => Or.inl hflag
      | mutator => exact hkeep (by simp) (by simp [hfrom])
      | master => exact hkeep (by simp) (by simp [hfrom])
  | exit hpc => exact hinv.asleep
  | activate hpc _ => exact hkeep (by simp) (by simp [hpc])
  | push hpc => exact hkeep (by simp) (by simp [hpc])
  | clear hpc =>
      exact fun _ _ => Or.inr ⟨thread, Function.update_self ..⟩
  | signal hpc =>
      intro other hother
      dsimp only [State.moveTo] at hother
      rw [Function.update_apply] at hother
      split at hother
      · cases hother
      · exact absurd hother (wake_ne_asleep _)
  | deactivate hpc => exact hkeep (by simp) (by simp [hpc])

theorem Inv.turn (hinv : Inv state) (hturn : Turn gauge state thread next) : Inv next where
  gcLock := gcLock_of_turn hinv.gcLock hturn
  master := master_of_turn hinv.master hturn
  decided := decided_of_turn hinv hturn
  asleep := asleep_of_turn hinv hturn

/-- Entering one of the two functions. -/
theorem Inv.call (hinv : Inv state) (hpc : state.pcs thread = .outside)
    (hcritical : ¬Critical pc) (hcollecting : ¬Collecting pc) (hscope : pc ≠ .testDerefScope)
    (hasleep : pc ≠ .asleep) : Inv (state.moveTo thread pc) := by
  obtain ⟨master, hguards, hactive⟩ := hinv.master
  constructor
  case gcLock => exact hinv.gcLock.move (iff_of_false hcritical (by simp [hpc, Critical]))
  case master =>
    have houtside : ¬Collecting (state.pcs thread) := by simp [hpc, Collecting]
    exact ⟨master, hguards.move (iff_of_false hcollecting houtside), hactive⟩
  case decided =>
    intro other hother
    dsimp only [State.moveTo] at hother
    rw [Function.update_apply] at hother
    split at hother
    · exact absurd hother hscope
    · exact hinv.decided other hother
  case asleep =>
    intro other hother
    dsimp only [State.moveTo] at hother
    rw [Function.update_apply] at hother
    split at hother
    · exact absurd hother hasleep
    · rcases hinv.asleep other hother with hflag | hsignal
      · exact Or.inl hflag
      · exact Or.inr (exists_update (· = .signalAll) (by simp [hpc]) hsignal)

/-- Code outside the repository only ever sets the flag. -/
def OnlySets (_ : State threads) (action : Action threads) : Prop :=
  action ≠ .assign false

/-- It sets the flag only while the free cache is almost empty. -/
def SetsTimely (gauge : Gauge) (state : State threads) (action : Action threads) : Prop :=
  ∀ almostEmpty, action = .assign almostEmpty →
    almostEmpty = true ∧ gauge.isFreeCacheAlmostEmpty state.freeRegions = true

theorem SetsTimely.onlySets {action : Action threads}
    (htimely : SetsTimely gauge state action) : OnlySets state action := by
  intro hassign
  exact absurd (htimely false hassign).1 (by simp)

theorem Inv.step {action : Action threads} (hinv : Inv state)
    (hallowed : OnlySets state action) (hstep : step gauge state action = some next) :
    Inv next := by
  cases transition_of_step hstep with
  | waitForGcCache hpc =>
      exact hinv.call hpc (by simp [Critical]) (by simp [Collecting]) (by simp) (by simp)
  | gcCache hpc =>
      exact hinv.call hpc (by simp [Critical]) (by simp [Collecting]) (by simp) (by simp)
  | run hturn => exact hinv.turn hturn
  | allocate => exact ⟨hinv.gcLock, hinv.master, hinv.decided, hinv.asleep⟩
  | assign almostEmpty =>
      cases almostEmpty with
      | false => exact absurd rfl hallowed
      | true => exact ⟨hinv.gcLock, hinv.master, fun _ _ => rfl, fun _ _ => Or.inl rfl⟩

theorem Inv.of_initial (hinitial : (machine gauge threads).initial state) : Inv state := by
  obtain ⟨hinactive, -, hfree, -, houtside⟩ := hinitial
  constructor
  case gcLock =>
    rw [hfree]
    exact Library.guards_of_free fun thread => by simp [houtside thread, Critical]
  case master =>
    refine ⟨none, Library.guards_of_free fun thread => ?_, hinactive⟩
    simp [houtside thread, Collecting]
  case decided => simp [houtside]
  case asleep => simp [houtside]

theorem inv_of_reachable (hreachable : (machine gauge threads).ReachableUnder OnlySets state) :
    Inv state :=
  hreachable.invariant Inv Inv.of_initial fun hinv hallowed hstep => hinv.step hallowed hstep

/-- A thread that leaves phase 5 has decided the flag. -/
theorem Timely.update (htimely : Timely gauge state)
    (hkeep : Refilling (state.pcs thread) → Refilling pc ∨
      (state.almostEmpty = true →
        gauge.isFreeCacheAlmostEmpty state.freeRegions = true)) :
    state.almostEmpty = true →
      gauge.isFreeCacheAlmostEmpty state.freeRegions = true ∨
        ∃ master, Refilling (Function.update state.pcs thread pc master) := by
  intro hflag
  rcases htimely hflag with halmost | hrefilling
  · exact Or.inl halmost
  by_cases hthread : Refilling (state.pcs thread)
  · rcases hkeep hthread with hpc | halmost
    · exact Or.inr ⟨thread, by rwa [Function.update_self]⟩
    · exact Or.inl (halmost hflag)
  · exact Or.inr (exists_update Refilling hthread hrefilling)

theorem Timely.turn (htimely : Timely gauge state) (hturn : Turn gauge state thread next) :
    Timely gauge next := by
  cases hturn with
  | move hmove =>
      refine htimely.update fun hrefilling => ?_
      generalize hfrom : state.pcs thread = pc at hmove hrefilling
      cases hmove with
      | pushedAll => exact Or.inl trivial
      | stillAlmostEmpty halmost => exact Or.inr fun _ => halmost
      | enough => exact Or.inl trivial
      | _ => exact absurd hrefilling (by simp [Refilling])
  | acquire _ hentry =>
      refine htimely.update fun hrefilling => ?_
      generalize state.pcs thread = pc at hentry hrefilling
      cases hentry with
      | master => exact Or.inl trivial
      | _ => exact absurd hrefilling (by simp [Refilling])
  | release hexit =>
      refine htimely.update fun hrefilling => ?_
      generalize state.pcs thread = pc at hexit hrefilling
      cases hexit <;> exact absurd hrefilling (by simp [Refilling])
  | exit hpc => exact htimely
  | activate hpc _ => exact htimely.update (by simp [hpc, Refilling])
  | push hpc => exact fun _ => Or.inr ⟨thread, by simp [State.moveTo, Refilling]⟩
  | clear hpc =>
      intro hflag
      cases hflag
  | signal hpc =>
      intro hflag
      rcases htimely hflag with halmost | ⟨master, hmaster⟩
      · exact Or.inl halmost
      · refine Or.inr ⟨master, ?_⟩
        dsimp only [State.moveTo]
        rw [Function.update_of_ne, refilling_wake]
        · exact hmaster
        · rintro rfl
          simp [hpc, Refilling] at hmaster
  | deactivate hpc => exact htimely.update (by simp [hpc, Refilling])

theorem Timely.step {action : Action threads} (htimely : Timely gauge state)
    (hallowed : SetsTimely gauge state action)
    (hstep : Waiting.step gauge state action = some next) : Timely gauge next := by
  cases transition_of_step hstep with
  | waitForGcCache hpc => exact htimely.update (by simp [hpc, Refilling])
  | gcCache hpc => exact htimely.update (by simp [hpc, Refilling])
  | run hturn => exact htimely.turn hturn
  | allocate =>
      intro hflag
      exact (htimely hflag).imp_left (gauge.almostEmpty_of_le (Nat.sub_le _ _))
  | assign almostEmpty => exact fun _ => Or.inl (hallowed almostEmpty rfl).2

theorem timely_of_reachable
    (hreachable : (machine gauge threads).ReachableUnder (SetsTimely gauge) state) :
    Timely gauge state := by
  refine hreachable.invariant (Timely gauge) ?_ ?_
  · intro start hinitial hflag
    exact absurd hflag (by simp [hinitial.2.1])
  · exact fun htimely hallowed hstep => htimely.step hallowed hstep

end Step

/-! ## No sleeper is forgotten -/

section Sleepers

variable {gauge : Gauge} {state : State threads}

/-- No wakeup is lost: a mutator sleeps only while the flag is set or the thread
that has just cleared it is about to wake everyone. -/
theorem asleep_explained
    (hreachable : (machine gauge threads).ReachableUnder OnlySets state)
    {thread : Fin threads} (hasleep : state.pcs thread = .asleep) :
    state.almostEmpty = true ∨
      ∃ master, state.pcs master = .signalAll ∧ state.gcLock = some master := by
  have hinv := inv_of_reachable hreachable
  rcases hinv.asleep thread hasleep with hflag | ⟨master, hmaster⟩
  · exact Or.inl hflag
  · exact Or.inr ⟨master, hmaster, hinv.gcLock.owner_eq (by simp [hmaster, Critical])⟩

/-- A master that finds enough free regions and ends leaves no mutator asleep. -/
theorem no_sleeper_at_high
    (hreachable : (machine gauge threads).ReachableUnder (SetsTimely gauge) state)
    {master : Fin threads} (hmaster : state.pcs master = .checkHigh)
    (hhigh : gauge.isFreeCacheHigh state.freeRegions = true) (thread : Fin threads) :
    state.pcs thread ≠ .asleep := by
  have hinv := inv_of_reachable (hreachable.mono SetsTimely.onlySets)
  obtain ⟨active, hactive, -⟩ := hinv.master
  -- the master is the only thread in `gc_cache`, so none is in phase 5
  have hother : ∀ {other : Fin threads}, Collecting (state.pcs other) →
      state.pcs other = .checkHigh := by
    intro other hcollecting
    have hchecking : Collecting (state.pcs master) := by simp [hmaster, Collecting]
    rw [hactive.eq hcollecting hchecking, hmaster]
  intro hasleep
  rcases hinv.asleep thread hasleep with hflag | ⟨other, hsignal⟩
  · rcases timely_of_reachable hreachable hflag with halmost | ⟨other, hrefilling⟩
    · exact absurd halmost (by simp [gauge.not_almostEmpty_of_high hhigh])
    · have hcollecting : Collecting (state.pcs other) := by
        revert hrefilling
        cases state.pcs other <;> simp [Refilling, Collecting]
      rw [hother hcollecting] at hrefilling
      exact hrefilling
  · have hcollecting : Collecting (state.pcs other) := by simp [hsignal, Collecting]
    have hcheck := hother hcollecting
    rw [hsignal] at hcheck
    cases hcheck

end Sleepers

/-- Almost empty without a free region, and high from two on. -/
def Gauge.twoRegions : Gauge where
  isFreeCacheLow count := count < 2
  isFreeCacheHigh count := 2 ≤ count
  isFreeCacheAlmostEmpty count := count = 0
  almostEmpty_of_le := by
    intro fewer more hle hmore
    simp only [decide_eq_true_eq] at hmore ⊢
    omega
  not_almostEmpty_of_high := by
    intro count hhigh
    simp only [decide_eq_true_eq, decide_eq_false_iff_not] at hhigh ⊢
    omega

/-- Two threads and no free region. -/
def exhausted : State 2 where
  gcMasterActive := false
  almostEmpty := false
  gcLock := none
  freeRegions := 0
  exited := false
  pcs _ := .outside

def mutator : Fin 2 := ⟨0, Nat.two_pos⟩

def collector : Fin 2 := ⟨1, Nat.one_lt_two⟩

/-- The mutator goes to sleep. -/
def sleepRun : List (Action 2) :=
  Action.assign true :: Action.waitForGcCache mutator ::
    List.replicate 3 (Action.run mutator false 0)

/-- The other thread then collects two regions and wakes it. -/
def roundRun : List (Action 2) :=
  sleepRun ++ Action.gcCache collector ::
    List.replicate 3 (Action.run collector false 0) ++
      Action.run collector false 2 :: List.replicate 9 (Action.run collector false 0)

def setsTimely (gauge : Gauge) (state : State 2) : Action 2 → Bool
  | .assign almostEmpty => almostEmpty && gauge.isFreeCacheAlmostEmpty state.freeRegions
  | _ => true

theorem setsTimely_of_check {gauge : Gauge} {state : State 2} {action : Action 2}
    (hcheck : setsTimely gauge state action = true) : SetsTimely gauge state action := by
  rintro almostEmpty rfl
  rwa [setsTimely, Bool.and_eq_true] at hcheck

theorem exists_sleepRun :
    ∃ state, (machine Gauge.twoRegions 2).run exhausted sleepRun = some state ∧
      state.pcs mutator = .asleep :=
  Option.map_eq_some_iff.mp (by decide)

theorem exists_roundRun :
    ∃ state, (machine Gauge.twoRegions 2).run exhausted roundRun = some state ∧
      (state.pcs mutator, state.pcs collector, state.freeRegions, state.almostEmpty,
          state.exited) =
        (.woken, .checkHigh, 2, false, false) :=
  Option.map_eq_some_iff.mp (by decide)

theorem reachable_of_run {state : State 2} {actions : List (Action 2)}
    (hrun : (machine Gauge.twoRegions 2).run exhausted actions = some state)
    (hcheck : (machine Gauge.twoRegions 2).runAllowed (setsTimely Gauge.twoRegions)
      exhausted actions = true) :
    (machine Gauge.twoRegions 2).ReachableUnder (SetsTimely Gauge.twoRegions) state :=
  .of_run setsTimely_of_check (.initial ⟨rfl, rfl, rfl, rfl, fun _ => rfl⟩) hrun hcheck

theorem asleep_explained_sleepRun :
    ∃ state, (machine Gauge.twoRegions 2).run exhausted sleepRun = some state ∧
      (state.almostEmpty = true ∨
        ∃ master, state.pcs master = .signalAll ∧ state.gcLock = some master) := by
  obtain ⟨state, hrun, hasleep⟩ := exists_sleepRun
  have hreachable := reachable_of_run hrun (by decide)
  exact ⟨state, hrun, asleep_explained (hreachable.mono SetsTimely.onlySets) hasleep⟩

theorem no_sleeper_at_high_roundRun :
    ∃ state, (machine Gauge.twoRegions 2).run exhausted roundRun = some state ∧
      state.pcs collector = .checkHigh ∧ ∀ thread, state.pcs thread ≠ .asleep := by
  obtain ⟨state, hrun, hfinal⟩ := exists_roundRun
  simp only [Prod.mk.injEq] at hfinal
  obtain ⟨-, hmaster, hfree, -⟩ := hfinal
  have hreachable := reachable_of_run hrun (by decide)
  exact ⟨state, hrun, hmaster,
    no_sleeper_at_high hreachable hmaster (by rw [hfree]; rfl)⟩

/-! ## Waiters return -/

/-- In `mutator_wait_for_gc_cache`. -/
def InWait : Pc → Prop
  | .lock | .testAlmostEmpty | .testDerefScope | .asleep | .woken | .retest | .unlock => True
  | _ => False

/-- Steps that a thread still takes up to the end of its critical section while
the flag stays false. -/
def rank : Pc → ℕ
  | .gcLock => 5
  | .asleep | .testDerefScope | .checkAlmostEmpty => 4
  | .lock | .woken | .clearAlmostEmpty => 3
  | .testAlmostEmpty | .retest | .signalAll => 2
  | .unlock | .gcUnlock => 1
  | _ => 0

/-- Steps still to be taken by all threads. -/
def remaining (pcs : Fin threads → Pc) : ℕ :=
  ∑ thread, rank (pcs thread)

/-- The step of a thread that has a critical section to finish. -/
def drains (state : State threads) : Action threads → ℕ
  | .run thread _ _ => if 0 < rank (state.pcs thread) then 1 else 0
  | _ => 0

/-- A new call brings its own steps, and so does a master that ends a round. -/
def brings (state : State threads) : Action threads → ℕ
  | .waitForGcCache _ => 3
  | .run thread _ _ => if state.pcs thread = .push 0 then 5 else 0
  | _ => 0

/-- No code outside the repository writes the flag. -/
def undisturbed (_ : State threads) : Action threads → Bool
  | .assign _ => false
  | _ => true

/-- What holds while the flag stays false. -/
structure Calm (state : State threads) : Prop where
  inv : Inv state
  flag : state.almostEmpty = false
  live : state.exited = false

section Waiters

variable {gauge : Gauge} {state next : State threads} {thread : Fin threads} {pc : Pc}

theorem remaining_update (pcs : Fin threads → Pc) (thread : Fin threads) (pc : Pc) :
    remaining (Function.update pcs thread pc) + rank (pcs thread) =
      remaining pcs + rank pc :=
  Library.Machine.sum_update rank pcs thread pc

theorem rank_wake_le (pc : Pc) : rank (wake pc) ≤ rank pc := by
  cases pc <;> simp [wake, rank]

theorem remaining_le (pcs : Fin threads → Pc) : remaining pcs ≤ 5 * threads := by
  have hrank : ∀ pc, rank pc ≤ 5 := by
    intro pc
    cases pc <;> simp [rank]
  calc
    remaining pcs ≤ ∑ _thread : Fin threads, 5 :=
      Finset.sum_le_sum fun thread _ => hrank (pcs thread)
    _ = 5 * threads := by simp [Nat.mul_comm]

/-- Under the lock with the flag clear, a mutator is on its way out. -/
theorem Calm.ne_testDerefScope (hcalm : Calm state) (thread : Fin threads) :
    state.pcs thread ≠ .testDerefScope := by
  intro hpc
  have hflag := hcalm.inv.decided thread hpc
  rw [hcalm.flag] at hflag
  cases hflag

theorem Calm.turn (hcalm : Calm state) (hturn : Turn gauge state thread next) :
    Calm next := by
  refine ⟨hcalm.inv.turn hturn, ?_, ?_⟩
  · cases hturn with
    | clear => rfl
    | _ => exact hcalm.flag
  · cases hturn with
    | exit hpc => exact absurd hpc (hcalm.ne_testDerefScope thread)
    | _ => exact hcalm.live

/-- A turn lowers the rank of a thread with a critical section to finish; only
the end of a round raises one. -/
theorem Calm.pay_turn (hcalm : Calm state) (hturn : Turn gauge state thread next)
    (isInDerefScope : Bool) (picked : ℕ) :
    remaining next.pcs + drains state (.run thread isInDerefScope picked) ≤
      remaining state.pcs + brings state (.run thread isInDerefScope picked) := by
  have hpay : ∀ {pc : Pc},
      rank pc + drains state (.run thread isInDerefScope picked) ≤
          rank (state.pcs thread) + brings state (.run thread isInDerefScope picked) →
        remaining (Function.update state.pcs thread pc) +
            drains state (.run thread isInDerefScope picked) ≤
          remaining state.pcs + brings state (.run thread isInDerefScope picked) := by
    intro pc hrank
    have hupdate := remaining_update state.pcs thread pc
    omega
  simp only [drains, brings] at hpay ⊢
  cases hturn with
  | move hmove =>
      apply hpay
      generalize state.pcs thread = pc at hmove
      cases hmove with
      | mustWait hflag => exact absurd hflag (by simp [hcalm.flag])
      | _ => simp [rank]
  | acquire _ hentry =>
      apply hpay
      generalize state.pcs thread = pc at hentry
      cases hentry <;> simp [rank]
  | release hexit =>
      apply hpay
      have hscope := hcalm.ne_testDerefScope thread
      generalize state.pcs thread = pc at hexit hscope
      cases hexit with
      | wait => exact absurd rfl hscope
      | waitAgain hflag => exact absurd hflag (by simp [hcalm.flag])
      | _ => simp [rank]
  | exit hpc => exact absurd hpc (hcalm.ne_testDerefScope thread)
  | activate hpc _ => exact hpay (by simp [hpc, rank])
  | push hpc => exact hpay (by simp [hpc, rank])
  | clear hpc => exact hpay (by simp [hpc, rank])
  | signal hpc =>
      have hself : rank (wake (state.pcs thread)) = 2 := by
        rw [hpc]
        rfl
      have hafter : rank Pc.gcUnlock = 1 := rfl
      have hle : remaining (fun other => wake (state.pcs other)) ≤ remaining state.pcs :=
        Finset.sum_le_sum fun other _ => rank_wake_le (state.pcs other)
      have hwoken :=
        remaining_update (fun other => wake (state.pcs other)) thread .gcUnlock
      dsimp only [State.moveTo] at hwoken ⊢
      split <;> omega
  | deactivate hpc => exact hpay (by simp [hpc, rank])

theorem Calm.step {action : Action threads} (hcalm : Calm state)
    (hallowed : undisturbed state action = true)
    (hstep : step gauge state action = some next) : Calm next := by
  have honlySets : OnlySets state action := by
    rintro rfl
    cases hallowed
  have hinv := hcalm.inv.step honlySets hstep
  cases transition_of_step hstep with
  | waitForGcCache hpc => exact ⟨hinv, hcalm.flag, hcalm.live⟩
  | gcCache hpc => exact ⟨hinv, hcalm.flag, hcalm.live⟩
  | run hturn => exact hcalm.turn hturn
  | allocate => exact ⟨hinv, hcalm.flag, hcalm.live⟩
  | assign almostEmpty => cases hallowed

theorem Calm.pay {action : Action threads} (hcalm : Calm state)
    (hallowed : undisturbed state action = true)
    (hstep : Waiting.step gauge state action = some next) :
    remaining next.pcs + drains state action ≤
      remaining state.pcs + brings state action := by
  cases transition_of_step hstep with
  | waitForGcCache hpc =>
      rename_i caller
      have hafter : rank Pc.lock = 3 := rfl
      have hupdate := remaining_update state.pcs caller .lock
      dsimp only [State.moveTo, drains, brings]
      omega
  | gcCache hpc =>
      rename_i caller
      have hafter : rank Pc.checkLow = 0 := rfl
      have hupdate := remaining_update state.pcs caller .checkLow
      dsimp only [State.moveTo, drains, brings]
      omega
  | run hturn => exact hcalm.pay_turn hturn _ _
  | allocate => exact le_rfl
  | assign almostEmpty => cases hallowed

/-- The owner of `gc_lock_` can always go on. -/
theorem advance_of_critical (gauge : Gauge) (hcritical : Critical (state.pcs thread)) :
    ∃ next, advance gauge state thread false 0 = some next := by
  rw [advance]
  cases hpc : state.pcs thread <;> simp_all [Critical]

theorem rank_of_critical (hcritical : Critical pc) : 0 < rank pc := by
  cases pc <;> simp_all [Critical, rank]

/-- While a mutator is in `mutator_wait_for_gc_cache`, some critical section can
be moved on. -/
theorem Calm.progress (hcalm : Calm state) (hwaits : InWait (state.pcs thread)) :
    ∃ action next, drains state action = 1 ∧
      Waiting.step gauge state action = some next := by
  have hrun : ∀ {thread : Fin threads} {next : State threads},
      0 < rank (state.pcs thread) → advance gauge state thread false 0 = some next →
        ∃ action next, drains state action = 1 ∧
          Waiting.step gauge state action = some next := by
    intro thread next hrank hadvance
    refine ⟨.run thread false 0, next, by simp [drains, hrank], ?_⟩
    simp only [Waiting.step, hcalm.live]
    exact hadvance
  cases howner : state.gcLock with
  | some owner =>
      have hcritical := (hcalm.inv.gcLock owner).mpr howner
      obtain ⟨next, hadvance⟩ := advance_of_critical gauge hcritical
      exact hrun (rank_of_critical hcritical) hadvance
  | none =>
      have hfree : ∀ other, ¬Critical (state.pcs other) := by
        intro other hcritical
        rw [(hcalm.inv.gcLock other).mp hcritical] at howner
        cases howner
      have hthread := hfree thread
      cases hpc : state.pcs thread with
      | lock =>
          have hadvance : advance gauge state thread false 0 =
              some ({ state with gcLock := some thread }.moveTo thread .testAlmostEmpty) := by
            simp [advance, hpc, State.acquire, howner]
          exact hrun (by simp [hpc, rank]) hadvance
      | woken =>
          have hadvance : advance gauge state thread false 0 =
              some ({ state with gcLock := some thread }.moveTo thread .retest) := by
            simp [advance, hpc, State.acquire, howner]
          exact hrun (by simp [hpc, rank]) hadvance
      | asleep =>
          rcases hcalm.inv.asleep thread hpc with hflag | ⟨master, hmaster⟩
          · rw [hcalm.flag] at hflag
            cases hflag
          · exact absurd (by simp [hmaster, Critical]) (hfree master)
      | _ => simp_all [Critical, InWait]

/-- Every waiter returns: in every run from a reachable state with the flag
clear and not written again, the critical sections take at most five steps for
each thread and each round that ends, and three for each new call, and as long
as a mutator is still waiting one of those steps can be taken. -/
theorem waiters_return
    (hreachable : (machine gauge threads).ReachableUnder OnlySets state)
    (hflag : state.almostEmpty = false) (hlive : state.exited = false)
    {final : State threads} {actions : List (Action threads)}
    (hrun : ((machine gauge threads).restrict undisturbed).run state actions = some final) :
    ((machine gauge threads).restrict undisturbed).runTotal drains state actions ≤
        5 * threads +
          ((machine gauge threads).restrict undisturbed).runTotal brings state actions ∧
      ∀ thread, InWait (final.pcs thread) →
        ∃ action next, drains final action = 1 ∧ step gauge final action = some next := by
  have hcalm : Calm state := ⟨inv_of_reachable hreachable, hflag, hlive⟩
  have hkeep : ∀ {state next : State threads} {action : Action threads}, Calm state →
      ((machine gauge threads).restrict undisturbed).step state action = some next →
        Calm next := by
    intro state next action hcalm hstep
    rw [Library.Machine.restrict_step_eq_some] at hstep
    exact hcalm.step hstep.1 hstep.2
  constructor
  · have htotal := Library.Machine.runTotal_le Calm
      (fun state => remaining state.pcs) drains brings hkeep (by
      intro state next action hcalm hstep
      rw [Library.Machine.restrict_step_eq_some] at hstep
      exact hcalm.pay hstep.1 hstep.2) hcalm hrun
    have hbound := remaining_le state.pcs
    omega
  · intro thread hwaits
    exact (Library.Machine.run_induction Calm hkeep hcalm hrun).progress hwaits

end Waiters

/-- The woken thread takes the lock again and returns. -/
def returnRun : List (Action 2) :=
  List.replicate 3 (Action.run mutator false 0)

theorem exists_returnRun {state : State 2}
    (hrun : (machine Gauge.twoRegions 2).run exhausted roundRun = some state) :
    ∃ final, ((machine Gauge.twoRegions 2).restrict undisturbed).run state returnRun =
      some final := by
  have hreturns : ((machine Gauge.twoRegions 2).run exhausted roundRun).all
      (fun state => (((machine Gauge.twoRegions 2).restrict undisturbed).run state
        returnRun).isSome) = true := by
    decide
  rw [hrun, Option.all_some] at hreturns
  exact Option.isSome_iff_exists.mp hreturns

theorem waiters_return_roundRun :
    ∃ state final, (machine Gauge.twoRegions 2).run exhausted roundRun = some state ∧
      ((machine Gauge.twoRegions 2).restrict undisturbed).run state returnRun =
        some final ∧
      ((machine Gauge.twoRegions 2).restrict undisturbed).runTotal drains state
          returnRun ≤
        5 * 2 + ((machine Gauge.twoRegions 2).restrict undisturbed).runTotal brings
          state returnRun := by
  obtain ⟨state, hrun, hfinal⟩ := exists_roundRun
  simp only [Prod.mk.injEq] at hfinal
  obtain ⟨-, -, -, hflag, hlive⟩ := hfinal
  obtain ⟨final, hreturn⟩ := exists_returnRun hrun
  have hreachable := (reachable_of_run hrun (by decide)).mono SetsTimely.onlySets
  exact ⟨state, final, hrun, hreturn,
    (waiters_return hreachable hflag hlive hreturn).1⟩

end DynamicSwap.Waiting
